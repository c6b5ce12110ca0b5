import YxAlpha.Http.Response
import YxAlpha.Http.Server
import YxAlpha.Library.Machine
import YxAlpha.Net.TcpConnection

/-!
# Rejected requests

A connection of `http/httpserver.h`: the parser context, the `TcpConnection` whose input
buffer it reads, and the events of the loop thread.  `HttpServer` keeps its connections to
itself, so nothing else works on one; what the callback of the user makes of a response is
up to the environment.

A request line that is rejected stays at the front of the buffer, where every later call
finds and rejects it again, and `ShutDown` has moved the connection out of `CONNECTED` by
then, so that no other response is accepted (`rejection_ends`).
-/

namespace YxAlpha

/-- The callback of the user, which fills in the response. -/
abbrev HttpCallBack := HttpRequest → HttpResponse → HttpResponse

/-- What the environment does during one call of `OnMessage`. -/
structure MessageInput where
  /-- A bound on the iterations of `ParseRequest`. -/
  fuel : ℕ
  callBack : HttpCallBack
  /-- The answer to the `write` for a rejection. -/
  writeRejection : KernelWrite
  /-- The answer to the `write` for a response. -/
  writeResponse : KernelWrite

structure Conversation where
  context : HttpContext
  conn : TcpConnection
  /-- What `ParseRequest` has returned, call by call. -/
  parsed : List Bool
  /-- The requests handed to `OnRequest`. -/
  requests : List HttpRequest
  /-- What the responses of `OnMessage` to rejections have added to the stream, one by one. -/
  badRequests : List Bytes

inductive ConversationAction
  | established
  /-- `HandleRead`. -/
  | read (r : Buffer.ReadResult) (input : MessageInput)
  /-- `HandleWrite`. -/
  | write (r : KernelWrite)
  | destroyed

namespace Conversation

def new (highWaterMark : ℕ) : Conversation where
  context := .new
  conn := .new highWaterMark false false
  parsed := []
  requests := []
  badRequests := []

/-- `response(close)` in `OnRequest`. -/
def closes (request : HttpRequest) : Bool :=
  let connection := request.getHeader (ascii "Connection")
  connection = ascii "close" ∨ (request.version = .http10 ∧ connection ≠ ascii "Keep-Alive")

def onRequest (s : Conversation) (input : MessageInput) (request : HttpRequest) : Conversation :=
  let response := input.callBack request (.new (closes request))
  let buf := response.appendToBuffer .new
  let sent := (s.conn.sendBuffer (input.writeResponse buf.payloadSize) buf).1
  { s with
    conn := if response.closeConnection then sent.shutDown else sent
    requests := s.requests ++ [request] }

/-- A call that `OnMessage` makes; it calls `Send` itself for a rejection only. -/
def runCall (input : MessageInput) (s : Conversation) : Call → Conversation
  | .send data =>
      let conn := s.conn.send (input.writeRejection data.length) data
      { s with
        conn
        badRequests := s.badRequests ++ [conn.stream.drop s.conn.stream.length] }
  | .shutDown => { s with conn := s.conn.shutDown }
  | .onRequest request => s.onRequest input request

def onMessage (s : Conversation) (input : MessageInput) : Option Conversation :=
  (s.context.parseRequest input.fuel s.conn.inputBuf).map fun (ok, context, buf) =>
    let (context, calls) := respond ok context
    calls.foldl (runCall input)
      { s with context, conn := { s.conn with inputBuf := buf }, parsed := s.parsed ++ [ok] }

/-- The events of the loop thread; there is no next state after a failed assertion. -/
def step (s : Conversation) : ConversationAction → Option Conversation
  | .established =>
      s.conn.setConnectionEstablished.map fun conn => { s with conn, context := .new }
  | .read r input =>
      if s.conn.careRead then
        let conn := s.conn.handleRead r
        match r with
        | .data [] => conn.handleClose.map fun conn => { s with conn }
        | .data (_ :: _) => { s with conn }.onMessage input
        | .failed _ => some { s with conn }
      else none
  | .write r => (s.conn.handleWrite (r s.conn.outputBuf.payloadSize)).map fun conn =>
      { s with conn }
  | .destroyed => s.conn.setConnectionDestroyed.map fun conn => { s with conn }

def machine (highWaterMark : ℕ) : Machine Conversation ConversationAction where
  init := new highWaterMark
  step := step

end Conversation

/-! ## The parser on a rejected line -/

/-- The first complete line of the buffer is a request line that is rejected. -/
def Buffer.Rejects (b : Buffer) (line : Bytes) : Prop :=
  accepts line = false ∧ ∃ rest, crlf.cut b.payload = some (line, rest)

/-- What is appended to the buffer does not change its first line. -/
theorem Buffer.Rejects.append {b b' : Buffer} {line more : Bytes} (hb : b.Rejects line)
    (hpayload : b'.payload = b.payload ++ more) : b'.Rejects line := by
  obtain ⟨hreject, rest, hcut⟩ := hb
  obtain ⟨heq, hfree⟩ := crlf.cut_eq_some hcut
  refine ⟨hreject, rest ++ more, ?_⟩
  rw [hpayload, heq, List.append_assoc]
  exact crlf.cut_delimited hfree (rest ++ more)

theorem parseRequest_of_rejects {fuel : ℕ} {context : HttpContext} {buf : Buffer} {line : Bytes}
    (hstate : context.state = .expectRequestLine) (hbuf : buf.Rejects line) (hfuel : 0 < fuel) :
    context.parseRequest fuel buf =
      some (false, ⟨.expectRequestLine, (parseRequestLine context.request line).2⟩, buf) := by
  obtain ⟨hreject, rest, hcut⟩ := hbuf
  obtain ⟨hfind, hslice, -⟩ := findCRLF_of_cut hcut
  have hbody : Parse.body ⟨context, buf, true, false⟩ = some
      ⟨⟨.expectRequestLine, (parseRequestLine context.request line).2⟩, buf, false, true⟩ := by
    have hfalse : (parseRequestLine context.request line).1 = false := by
      rw [parseRequestLine_fst, hreject]
    simp [Parse.body, hstate, hfind, hslice, hfalse]
  obtain ⟨n, rfl⟩ := Nat.exists_eq_succ_of_ne_zero hfuel.ne'
  rw [HttpContext.parseRequest, Parse.loop, if_neg (by simp), hbody]
  cases n <;> rfl

/-- A call returns false only on a rejected line, which it leaves in the buffer. -/
theorem rejects_of_parseRequest {fuel : ℕ} {context after : HttpContext} {buf buf' : Buffer}
    (hparse : context.parseRequest fuel buf = some (false, after, buf')) :
    after.state = .expectRequestLine ∧ buf'.payload = buf.payload ∧ ∃ line, buf'.Rejects line := by
  obtain ⟨flagEnd, hresult⟩ := HttpContext.result_of_parseRequest hparse
  have houtcome := Scan.outcome_of_result hresult
  generalize hleft : buf'.payload = left at houtcome
  cases houtcome with
  | rejected hcut haccepts => exact ⟨rfl, rfl, _, haccepts, _, hleft ▸ hcut⟩

/-! ## Runs after a rejection -/

namespace Conversation

variable {s t : Conversation} {line : Bytes} {input : MessageInput}

/-- The connection has been shut down, or destroyed. -/
def Left (s : Conversation) : Prop :=
  s.conn.state = .disconnecting ∨ s.conn.state = .disconnected

/-- The conversation waits for ever on a rejected line. -/
structure Ended (line : Bytes) (s : Conversation) : Prop where
  state : s.context.state = .expectRequestLine
  line : s.conn.inputBuf.Rejects line
  left : s.Left

/-- What the steps after a rejection do not change: the line is rejected again, and nothing
is sent. -/
structure Silent (s t : Conversation) : Prop where
  requests : t.requests = s.requests
  stream : t.conn.stream = s.conn.stream
  parsed : ∃ n, t.parsed = s.parsed ++ List.replicate n false ∧
    t.badRequests = s.badRequests ++ List.replicate n []

theorem respond_of_rejection {context : HttpContext} (hstate : context.state = .expectRequestLine) :
    respond false context = (context, [.send badRequest, .shutDown]) := by
  simp [respond, HttpContext.isDone, hstate]

/-- `OnMessage` on a rejected line. -/
theorem onMessage_of_rejects (hstate : s.context.state = .expectRequestLine)
    (hline : s.conn.inputBuf.Rejects line) (hfuel : 0 < input.fuel) :
    s.onMessage input = some
      { s with
        context := ⟨.expectRequestLine, (parseRequestLine s.context.request line).2⟩
        conn := (s.conn.send (input.writeRejection badRequest.length) badRequest).shutDown
        parsed := s.parsed ++ [false]
        badRequests := s.badRequests ++
          [(s.conn.send (input.writeRejection badRequest.length) badRequest).stream.drop
            s.conn.stream.length] } := by
  rw [onMessage, parseRequest_of_rejects hstate hline hfuel, Option.map_some]
  dsimp only
  rw [respond_of_rejection rfl]
  rfl

/-- `ParseRequest` needs an iteration to return. -/
theorem fuel_pos_of_onMessage (h : s.onMessage input = some t) : 0 < input.fuel := by
  by_contra hzero
  obtain hzero : input.fuel = 0 := by omega
  simp [onMessage, HttpContext.parseRequest, hzero, Parse.loop] at h

theorem Left.not_connected (hs : s.Left) : s.conn.state ≠ .connected := by
  rcases hs with h | h <;> simp [h]

/-- An event that is not for the parser. -/
theorem Silent.of_eq {conn : TcpConnection} (hstream : conn.stream = s.conn.stream) :
    Silent s { s with conn } :=
  ⟨rfl, hstream, 0, (List.append_nil _).symm, (List.append_nil _).symm⟩

theorem Silent.refl (s : Conversation) : Silent s s := .of_eq rfl

theorem Silent.trans {u : Conversation} (hst : Silent s t) (htu : Silent t u) : Silent s u := by
  obtain ⟨n, hparsed, hbad⟩ := hst.parsed
  obtain ⟨m, hparsed', hbad'⟩ := htu.parsed
  refine ⟨htu.requests.trans hst.requests, htu.stream.trans hst.stream, n + m, ?_, ?_⟩
  · rw [hparsed', hparsed, List.append_assoc, List.replicate_append_replicate]
  · rw [hbad', hbad, List.append_assoc, List.replicate_append_replicate]

/-- A later call rejects the same line again, and its response is not accepted. -/
theorem Ended.onMessage (hs : Ended line s) (ht : s.onMessage input = some t) :
    Ended line t ∧ Silent s t := by
  rw [onMessage_of_rejects hs.state hs.line (fuel_pos_of_onMessage ht)] at ht
  have hleft := hs.left.not_connected
  simp only [TcpConnection.send, TcpConnection.shutDown, if_neg hleft, List.drop_length,
    Option.some.injEq] at ht
  subst ht
  exact ⟨⟨rfl, hs.line, hs.left⟩, rfl, rfl, 1, rfl, rfl⟩

/-- An event that only adds to the input buffer. -/
theorem Ended.setConn (hs : Ended line s) (conn : TcpConnection) {more : Bytes}
    (hpayload : conn.inputBuf.payload = s.conn.inputBuf.payload ++ more)
    (hstream : conn.stream = s.conn.stream)
    (hstate : conn.state = s.conn.state ∨ conn.state = .disconnected) :
    Ended line { s with conn } ∧ Silent s { s with conn } := by
  refine ⟨⟨hs.state, hs.line.append hpayload, ?_⟩, .of_eq hstream⟩
  rcases hstate with hsame | hgone
  · unfold Left
    rw [hsame]
    exact hs.left
  · exact Or.inr hgone

theorem Ended.step {action : ConversationAction} (hs : Ended line s)
    (hstep : s.step action = some t) : Ended line t ∧ Silent s t := by
  cases action with
  | established =>
      obtain ⟨conn, hconn, -⟩ := Option.map_eq_some_iff.mp hstep
      rcases hs.left with h | h <;> simp [TcpConnection.setConnectionEstablished, h] at hconn
  | read r input =>
      simp only [Conversation.step] at hstep
      split at hstep
      · cases r with
        | data bytes =>
            have hpayload := Buffer.payload_readFd s.conn.inputBuf bytes
            cases bytes with
            | nil =>
                obtain ⟨conn, hconn, rfl⟩ := Option.map_eq_some_iff.mp hstep
                rw [TcpConnection.handleClose, Option.ite_none_right_eq_some] at hconn
                cases hconn.2
                exact hs.setConn _ hpayload rfl (Or.inl rfl)
            | cons byte bytes =>
                obtain ⟨hended, hsilent⟩ :=
                  hs.setConn (s.conn.handleRead (.data (byte :: bytes))) hpayload rfl (Or.inl rfl)
                obtain ⟨hended', hsilent'⟩ := hended.onMessage hstep
                exact ⟨hended', hsilent.trans hsilent'⟩
        | failed errno =>
            cases hstep
            exact hs.setConn _ (List.append_nil _).symm rfl (Or.inl rfl)
      · cases hstep
  | write r =>
      obtain ⟨conn, hconn, rfl⟩ := Option.map_eq_some_iff.mp hstep
      have hr := (r s.conn.outputBuf.payloadSize).2
      have hbuf : conn.inputBuf = s.conn.inputBuf := TcpConnection.inputBuf_handleWrite hr hconn
      exact hs.setConn conn (by rw [hbuf, List.append_nil])
        (TcpConnection.stream_handleWrite hr hconn)
        (Or.inl (TcpConnection.state_handleWrite hr hconn))
  | destroyed =>
      obtain ⟨conn, hconn, rfl⟩ := Option.map_eq_some_iff.mp hstep
      rw [TcpConnection.setConnectionDestroyed, Option.ite_none_right_eq_some] at hconn
      cases hconn.2
      exact hs.setConn _ (List.append_nil _).symm rfl (Or.inr rfl)

/-! ## Runs up to a rejection -/

/-- No response to a rejection before the first one. -/
def Unrejected (s : Conversation) : Prop := false ∉ s.parsed → s.badRequests = []

theorem badRequests_onMessage {ok : Bool} {context : HttpContext} {buf : Buffer}
    (hparse : s.context.parseRequest input.fuel s.conn.inputBuf = some (ok, context, buf))
    (ht : s.onMessage input = some t) :
    t.parsed = s.parsed ++ [ok] ∧ (ok = true → t.badRequests = s.badRequests) := by
  rw [onMessage, hparse, Option.map_some, Option.some.injEq] at ht
  subst ht
  unfold respond
  cases ok <;> dsimp only <;> split <;> simp [runCall, onRequest]

theorem Unrejected.onMessage (hs : s.Unrejected) (ht : s.onMessage input = some t) :
    t.Unrejected := by
  obtain ⟨⟨ok, context, buf⟩, hparse, -⟩ := Option.map_eq_some_iff.mp ht
  obtain ⟨hparsed, hsame⟩ := badRequests_onMessage hparse ht
  intro hnone
  rw [hparsed, List.mem_append, not_or] at hnone
  cases ok with
  | false => simp at hnone
  | true => exact (hsame rfl).trans (hs hnone.1)

theorem Unrejected.step {action : ConversationAction} (hs : s.Unrejected)
    (hstep : s.step action = some t) : t.Unrejected := by
  cases action with
  | established | write | destroyed =>
      obtain ⟨conn, -, rfl⟩ := Option.map_eq_some_iff.mp hstep
      exact hs
  | read r input =>
      simp only [Conversation.step] at hstep
      split at hstep
      · cases r with
        | data bytes =>
            cases bytes with
            | nil =>
                obtain ⟨conn, -, rfl⟩ := Option.map_eq_some_iff.mp hstep
                exact hs
            | cons byte bytes =>
                exact Unrejected.onMessage (s := { s with
                  conn := s.conn.handleRead (.data (byte :: bytes)) }) hs hstep
        | failed errno =>
            cases hstep
            exact hs
      · cases hstep

/-- `OnMessage` when `ParseRequest` returns false on a connected connection. -/
theorem onMessage_of_false (hconnected : s.conn.state = .connected)
    (ht : s.onMessage input = some t) (hparsed : t.parsed = s.parsed ++ [false]) :
    t.conn.inputBuf.payload = s.conn.inputBuf.payload ∧ t.requests = s.requests ∧
      t.conn.stream = s.conn.stream ++ badRequest ∧
      t.badRequests = s.badRequests ++ [badRequest] ∧ ∃ line, Ended line t := by
  obtain ⟨⟨ok, context, buf⟩, hparse, -⟩ := Option.map_eq_some_iff.mp ht
  rw [(badRequests_onMessage hparse ht).1] at hparsed
  obtain rfl : ok = false := by simpa using hparsed
  obtain ⟨hstate, hpayload, line, hline⟩ := rejects_of_parseRequest hparse
  rw [onMessage, hparse, Option.map_some, Option.some.injEq] at ht
  dsimp only at ht
  rw [respond_of_rejection hstate] at ht
  subst ht
  have hr := (input.writeRejection badRequest.length).2
  set conn : TcpConnection := { s.conn with inputBuf := buf }
  have hsent := TcpConnection.state_send (c := conn) hr
  have hbuf : (conn.send (input.writeRejection badRequest.length) badRequest).shutDown.inputBuf =
      buf := by
    rw [TcpConnection.inputBuf_shutDown, TcpConnection.inputBuf_send hr]
  have hleft : (conn.send (input.writeRejection badRequest.length) badRequest).shutDown.state =
      .disconnecting := by
    rw [TcpConnection.shutDown, if_pos (hsent.trans hconnected), TcpConnection.state_shutDownInLoop]
  have hstream : (conn.send (input.writeRejection badRequest.length) badRequest).stream =
      s.conn.stream ++ badRequest := by
    rw [TcpConnection.send, if_pos hconnected, TcpConnection.stream_sendInLoop hr]
    rfl
  have hadded : (conn.send (input.writeRejection badRequest.length) badRequest).stream.drop
      conn.stream.length = badRequest := by
    rw [hstream]
    exact List.drop_left
  refine ⟨(congrArg Buffer.payload hbuf).trans hpayload, rfl,
    (TcpConnection.stream_shutDown).trans hstream, ?_, line, hstate, ?_, Or.inl hleft⟩
  · exact congrArg (s.badRequests ++ [·]) hadded
  · exact hbuf ▸ hline

/-! ## The end of the conversation -/

/-- After the first rejection, of `line` in the state `s`. -/
structure RejectedFor (line : Bytes) (s u : Conversation) : Prop where
  /-- The rejected line is still at the front of the buffer. -/
  unconsumed : line ++ crlf.word <+: u.conn.inputBuf.payload
  /-- `ParseRequest` has returned false ever since.  The first response to that has been
  accepted, whole, and no other one has. -/
  results : ∃ n, u.parsed = s.parsed ++ List.replicate (n + 1) false ∧
    u.badRequests = badRequest :: List.replicate n []
  /-- Whatever arrives next, it returns, and returns false, and consumes nothing. -/
  next : ∀ bytes fuel, 0 < fuel → ∃ context,
    u.context.parseRequest fuel (u.conn.inputBuf.readFd (.data bytes)) =
      some (false, context, u.conn.inputBuf.readFd (.data bytes))
  requests : u.requests = s.requests
  /-- Nothing else has been sent, either. -/
  stream : u.conn.stream = s.conn.stream ++ badRequest

theorem Ended.rejectedFor {u : Conversation} (hu : Ended line u) (hsilent : Silent t u)
    (hparsed : t.parsed = s.parsed ++ [false]) (hrequests : t.requests = s.requests)
    (hstream : t.conn.stream = s.conn.stream ++ badRequest)
    (hbad : t.badRequests = [badRequest]) : RejectedFor line s u where
  unconsumed := by
    obtain ⟨-, rest, hcut⟩ := hu.line
    rw [(crlf.cut_eq_some hcut).1]
    exact List.prefix_append _ _
  results := by
    obtain ⟨n, hn, hmore⟩ := hsilent.parsed
    refine ⟨n, ?_, ?_⟩
    · rw [hn, hparsed, List.append_assoc]
      rfl
    · rw [hmore, hbad]
      rfl
  next bytes fuel hfuel :=
    ⟨_, parseRequest_of_rejects hu.state (hu.line.append (Buffer.payload_readFd _ bytes)) hfuel⟩
  requests := hsilent.requests.trans hrequests
  stream := hsilent.stream.trans hstream

/-- **A rejected request ends the conversation.**  When `ParseRequest` first returns false,
on a connection that is connected, the buffer keeps what it held, and in every state of
every run from there on the line is rejected again, no request is handed to `OnRequest`, and
of the responses to rejections the first has been accepted, and nothing has been sent after it. -/
theorem rejection_ends (highWaterMark : ℕ) (before : List ConversationAction)
    (bytes : Bytes) (input : MessageInput) (s t : Conversation)
    (hbefore : (machine highWaterMark).exec (machine highWaterMark).init before = some s)
    (hfirst : false ∉ s.parsed) (hconnected : s.conn.state = .connected)
    (hread : (machine highWaterMark).step s (.read (.data bytes) input) = some t)
    (hrejected : t.parsed = s.parsed ++ [false]) :
    t.conn.inputBuf.payload = s.conn.inputBuf.payload ++ bytes ∧
    ∃ line, accepts line = false ∧
      ∀ after, (machine highWaterMark).Throughout (RejectedFor line s) t after := by
  have hunrejected : s.Unrejected := Machine.exec_invariant (I := Unrejected)
    (fun _ _ _ hs hstep => hs.step hstep) (fun _ => rfl) hbefore
  have hmessage : { s with conn := s.conn.handleRead (.data bytes) }.onMessage input = some t := by
    replace hread : s.step (.read (.data bytes) input) = some t := hread
    simp only [step, Option.ite_none_right_eq_some] at hread
    obtain ⟨-, hread⟩ := hread
    cases bytes with
    | nil =>
        obtain ⟨conn, -, rfl⟩ := Option.map_eq_some_iff.mp hread
        simp at hrejected
    | cons byte bytes => exact hread
  obtain ⟨hpayload, hrequests, hstream, hbad, line, hended⟩ :=
    onMessage_of_false (s := { s with conn := s.conn.handleRead (.data bytes) }) hconnected hmessage
      hrejected
  refine ⟨hpayload.trans (Buffer.payload_readFd _ _), line, hended.line.1, ?_⟩
  intro after
  have hrun := Machine.throughout_of_invariant (m := machine highWaterMark)
    (I := fun u => Ended line u ∧ Silent t u) (fun u action v hu hstep => by
      obtain ⟨hv, hsilent⟩ := hu.1.step hstep
      exact ⟨hv, hu.2.trans hsilent⟩) ⟨hended, Silent.refl t⟩ after
  have hone : t.badRequests = [badRequest] := by
    rw [hbad]
    exact congrArg (· ++ [badRequest]) (hunrejected hfirst)
  exact hrun.mono fun u hu => hu.1.rejectedFor hu.2 hrejected hrequests hstream hone

/-- The answers of a kernel that takes everything. -/
def takesAll : KernelWrite := fun len => ⟨.wrote len, Nat.le_refl len⟩

def okInput : MessageInput :=
  ⟨100, fun _ response => { response with statusCode := .ok }, takesAll, takesAll⟩

/-- A connection that has got the response to its first request. -/
def answeredOnce : List ConversationAction :=
  [.established, .read (.data (ascii "GET / HTTP/1.1\r\n\r\n")) okInput]

/-- The second request names a method that is not known. -/
theorem rejection_ends_brew : ∃ s t : Conversation, s.requests.length = 1 ∧
    t.conn.inputBuf.payload = s.conn.inputBuf.payload ++ ascii "BREW / HTTP/1.1\r\n" ∧
    ∃ line, accepts line = false ∧
      ∀ after, (machine 64).Throughout (RejectedFor line s) t after := by
  obtain ⟨s, hs⟩ : ∃ s, (machine 64).exec (machine 64).init answeredOnce = some s :=
    Option.isSome_iff_exists.mp (by decide +kernel)
  have hall : ∀ s, (machine 64).exec (machine 64).init answeredOnce = some s →
      (s.requests.length = 1 ∧ false ∉ s.parsed ∧ s.conn.state = .connected) ∧
        ((machine 64).step s (.read (.data (ascii "BREW / HTTP/1.1\r\n")) okInput)).isSome ∧
        ∀ t, (machine 64).step s (.read (.data (ascii "BREW / HTTP/1.1\r\n")) okInput) = some t →
          t.parsed = s.parsed ++ [false] := by decide +kernel
  obtain ⟨⟨hrequests, hfirst, hconnected⟩, hsome, hrejected⟩ := hall s hs
  obtain ⟨t, ht⟩ := Option.isSome_iff_exists.mp hsome
  exact ⟨s, t, hrequests,
    rejection_ends 64 answeredOnce _ okInput s t hs hfirst hconnected ht (hrejected t ht)⟩

end Conversation

end YxAlpha
