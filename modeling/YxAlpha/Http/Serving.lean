import YxAlpha.Http.Transcript

/-!
# Serving a stream of requests

The client writes well-formed requests, one behind the other, and they arrive in chunks of
any size.  `Session` already says which requests the parser makes of the chunks; here the
conversation is shown to call what the session calls (`session_of_run`), so that its
transcript is that of the responses to those requests, cut at the first that closes
(`served`).  No `write`, no order of events and no cut of the input is left in it, but for
the pace, which decides how many of the requests are answered.
-/

namespace YxAlpha

/-- The reply that a call stands for. -/
def Call.reply? (callBack : HttpCallBack) : Call → Option Reply
  | .send _ => some .rejection
  | .shutDown => none
  | .onRequest request => some (.onRequest callBack request)

namespace ConversationAction

/-- The chunk of a read that calls `OnMessage`. -/
def chunk? : ConversationAction → Option Bytes
  | .read (.data (byte :: bytes)) _ => some (byte :: bytes)
  | _ => none

/-- The callback is the one that was set before the server was started. -/
def Uses (callBack : HttpCallBack) : ConversationAction → Prop
  | .read _ input => input.callBack = callBack
  | _ => True

end ConversationAction

namespace Conversation

variable {s t : Conversation} {callBack : HttpCallBack} {input : MessageInput}

/-- The connection as the parser sees it. -/
def session (s : Conversation) (calls : List Call) : Session :=
  ⟨s.context, s.conn.inputBuf.payload, calls⟩

theorem answers_eq_filterMap (callBack : HttpCallBack) (ok : Bool) (context : HttpContext) :
    answers callBack ok context = (respond ok context).2.filterMap (Call.reply? callBack) := by
  unfold answers respond
  cases ok <;> cases context.isDone <;> rfl

/-- A reply is about the output only, and does not take the connection back. -/
theorem frame_sendTo {r : WriteResult} {reply : Reply} (hr : r.Fits reply.bytes.length)
    (c : TcpConnection) :
    (reply.sendTo c r).inputBuf = c.inputBuf ∧
      ((reply.sendTo c r).state = .connecting → c.state = .connecting) := by
  have hsend := TcpConnection.state_send (c := c) hr
  unfold Reply.sendTo
  split
  · refine ⟨by rw [TcpConnection.inputBuf_shutDown, TcpConnection.inputBuf_send hr], ?_⟩
    intro hstate
    rcases (c.send r reply.bytes).state_shutDown with hsame | ⟨-, hleft⟩
    · rw [← hsend, ← hsame, hstate]
    · rw [hleft] at hstate
      cases hstate
  · exact ⟨TcpConnection.inputBuf_send hr, fun hstate => hsend ▸ hstate⟩

theorem frame_runCall (input : MessageInput) (s : Conversation) (call : Call) :
    (runCall input s call).conn.inputBuf = s.conn.inputBuf ∧
      (runCall input s call).context = s.context ∧
      ((runCall input s call).conn.state = .connecting → s.conn.state = .connecting) := by
  cases call with
  | send data =>
      have hr := (input.writeRejection data.length).2
      exact ⟨TcpConnection.inputBuf_send hr, rfl,
        fun hstate => TcpConnection.state_send (c := s.conn) hr ▸ hstate⟩
  | shutDown =>
      refine ⟨TcpConnection.inputBuf_shutDown, rfl, fun hstate => ?_⟩
      rcases s.conn.state_shutDown with hsame | ⟨-, hleft⟩
      · exact hsame ▸ hstate
      · exact absurd (hleft.symm.trans hstate) (by decide)
  | onRequest request =>
      obtain ⟨r, hr, heq⟩ := onRequest_eq (s := s) input request
      obtain ⟨hbuf, hstate⟩ := frame_sendTo hr s.conn
      rw [runCall, heq]
      exact ⟨hbuf, rfl, hstate⟩

/-- What `OnMessage` calls does not change what the parser sees. -/
theorem session_runCalls (input : MessageInput) (s : Conversation) (made calls : List Call) :
    (made.foldl (runCall input) s).session calls = s.session calls := by
  induction made generalizing s with
  | nil => rfl
  | cons call made ih =>
      obtain ⟨hbuf, hcontext, -⟩ := frame_runCall input s call
      rw [List.foldl_cons, ih, session, session, hbuf, hcontext]

theorem connecting_of_runCalls (input : MessageInput) {s : Conversation} {made : List Call}
    (hstate : (made.foldl (runCall input) s).conn.state = .connecting) :
    s.conn.state = .connecting := by
  induction made generalizing s with
  | nil => exact hstate
  | cons call made ih => exact (frame_runCall input s call).2.2 (ih hstate)

/-- A call of `OnMessage` is a step of the session. -/
theorem session_of_onMessage {chunk : Bytes} (calls : List Call)
    (ht : { s with conn := s.conn.handleRead (.data chunk) }.onMessage input = some t) :
    ∃ ok context buf,
      s.context.parseRequest input.fuel (s.conn.handleRead (.data chunk)).inputBuf =
        some (ok, context, buf) ∧
      ∀ chunks, (s.session calls).run (chunk :: chunks) =
        (t.session (calls ++ (respond ok context).2)).run chunks := by
  obtain ⟨⟨ok, context, buf⟩, hparse, rfl⟩ := Option.map_eq_some_iff.mp ht
  refine ⟨ok, context, buf, hparse, ?_⟩
  intro chunks
  obtain ⟨flagEnd, hresult⟩ := HttpContext.result_of_parseRequest hparse
  have hpayload : (s.conn.handleRead (.data chunk)).inputBuf.payload =
      s.conn.inputBuf.payload ++ chunk := Buffer.payload_readFd s.conn.inputBuf chunk
  rw [hpayload] at hresult
  have hrun : (s.session calls).run (chunk :: chunks) =
      ((s.session calls).finish ⟨context, buf.payload, ok, flagEnd⟩).run chunks := by
    rw [Session.run, session, hresult, Option.bind_some]
  rw [hrun]
  dsimp only
  rw [session_runCalls]
  rfl

/-- Nothing is parsed before the connection is established. -/
def Untouched (s : Conversation) : Prop :=
  s.conn.state = .connecting → s.context = .new ∧ s.conn.careRead = false

theorem Untouched.step {action : ConversationAction} (hs : s.Untouched)
    (hstep : s.step action = some t) : t.Untouched := by
  cases action with
  | established =>
      obtain ⟨conn, hconn, rfl⟩ := Option.map_eq_some_iff.mp hstep
      rw [TcpConnection.setConnectionEstablished, Option.ite_none_right_eq_some] at hconn
      cases hconn.2
      intro hconnecting
      cases hconnecting
  | read r input =>
      simp only [Conversation.step, Option.ite_none_right_eq_some] at hstep
      obtain ⟨hread, hstep⟩ := hstep
      have hstate : s.conn.state ≠ .connecting := by
        intro hconnecting
        rw [(hs hconnecting).2] at hread
        cases hread
      cases r with
      | data bytes =>
          cases bytes with
          | nil =>
              obtain ⟨conn, hconn, rfl⟩ := Option.map_eq_some_iff.mp hstep
              rw [TcpConnection.handleClose, Option.ite_none_right_eq_some] at hconn
              cases hconn.2
              exact fun hconnecting => absurd hconnecting hstate
          | cons byte bytes =>
              obtain ⟨result, -, rfl⟩ := Option.map_eq_some_iff.mp hstep
              exact fun hconnecting => absurd (connecting_of_runCalls input hconnecting) hstate
      | failed errno =>
          cases hstep
          exact fun hconnecting => absurd hconnecting hstate
  | write r =>
      obtain ⟨conn, hconn, rfl⟩ := Option.map_eq_some_iff.mp hstep
      obtain ⟨hstate, hread, -⟩ :=
        TcpConnection.frame_handleWrite (r s.conn.outputBuf.payloadSize).2 hconn
      intro hconnecting
      obtain ⟨hcontext, hcare⟩ := hs (hstate.symm.trans hconnecting)
      exact ⟨hcontext, hread.trans hcare⟩
  | destroyed =>
      obtain ⟨conn, hconn, rfl⟩ := Option.map_eq_some_iff.mp hstep
      rw [TcpConnection.setConnectionDestroyed, Option.ite_none_right_eq_some] at hconn
      cases hconn.2
      intro hconnecting
      cases hconnecting

/-- The calls of a step, which are those of the session. -/
theorem session_step {action : ConversationAction} (hstep : s.step action = some t)
    (hstart : s.Untouched) (huses : action.Uses callBack) (calls : List Call) :
    ∃ made, offers s action t = made.filterMap (Call.reply? callBack) ∧
      ∀ chunks, (s.session calls).run (action.chunk?.toList ++ chunks) =
        (t.session (calls ++ made)).run chunks := by
  cases action with
  | established =>
      obtain ⟨conn, hconn, rfl⟩ := Option.map_eq_some_iff.mp hstep
      rw [TcpConnection.setConnectionEstablished, Option.ite_none_right_eq_some] at hconn
      obtain ⟨hstate, hconn⟩ := hconn
      cases hconn
      refine ⟨[], rfl, fun chunks => ?_⟩
      rw [List.append_nil, session, session, (hstart hstate).1]
      rfl
  | read r input =>
      simp only [Conversation.step, Option.ite_none_right_eq_some] at hstep
      obtain ⟨-, hstep⟩ := hstep
      cases r with
      | data bytes =>
          cases bytes with
          | nil =>
              obtain ⟨conn, hconn, rfl⟩ := Option.map_eq_some_iff.mp hstep
              rw [TcpConnection.handleClose, Option.ite_none_right_eq_some] at hconn
              cases hconn.2
              refine ⟨[], rfl, fun chunks => ?_⟩
              have hpayload : (s.conn.handleRead (.data [])).inputBuf.payload =
                  s.conn.inputBuf.payload :=
                (Buffer.payload_readFd s.conn.inputBuf []).trans (List.append_nil _)
              rw [List.append_nil, session, session, hpayload]
              rfl
          | cons byte bytes =>
              obtain ⟨ok, context, buf, hparse, hrun⟩ := session_of_onMessage calls hstep
              refine ⟨(respond ok context).2, ?_, hrun⟩
              rw [← answers_eq_filterMap, ← huses]
              simp only [offers, hparse]
      | failed errno =>
          cases hstep
          refine ⟨[], rfl, fun chunks => ?_⟩
          rw [List.append_nil]
          rfl
  | write r =>
      obtain ⟨conn, hconn, rfl⟩ := Option.map_eq_some_iff.mp hstep
      have hbuf : conn.inputBuf = s.conn.inputBuf :=
        TcpConnection.inputBuf_handleWrite (r s.conn.outputBuf.payloadSize).2 hconn
      refine ⟨[], rfl, fun chunks => ?_⟩
      rw [List.append_nil, session, session, hbuf]
      rfl
  | destroyed =>
      obtain ⟨conn, hconn, rfl⟩ := Option.map_eq_some_iff.mp hstep
      rw [TcpConnection.setConnectionDestroyed, Option.ite_none_right_eq_some] at hconn
      cases hconn.2
      refine ⟨[], rfl, fun chunks => ?_⟩
      rw [List.append_nil]
      rfl

/-- A run calls what its session calls, for the chunks that it has read. -/
theorem session_of_run {actions : List ConversationAction} {highWaterMark : ℕ}
    (hs : s.Untouched) (huses : ∀ action ∈ actions, action.Uses callBack)
    (hrun : (machine highWaterMark).exec s actions = some t) (calls : List Call) :
    ∃ made, (machine highWaterMark).observed offers s actions =
        made.filterMap (Call.reply? callBack) ∧
      (s.session calls).run (actions.filterMap ConversationAction.chunk?) =
        some (t.session (calls ++ made)) := by
  induction actions generalizing s calls with
  | nil =>
      cases hrun
      exact ⟨[], rfl, by rw [List.append_nil]; rfl⟩
  | cons action actions ih =>
      obtain ⟨u, hu, hrest⟩ := Option.bind_eq_some_iff.mp hrun
      rw [List.forall_mem_cons] at huses
      obtain ⟨made, hoffers, hstep⟩ := session_step hu hs huses.1 calls
      obtain ⟨more, hobserved, hsession⟩ := ih (hs.step hu) huses.2 hrest (calls ++ made)
      refine ⟨made ++ more, ?_, ?_⟩
      · rw [List.filterMap_append, ← hoffers, ← hobserved]
        simp only [Machine.observed, hu]
      · have hchunks : (action :: actions).filterMap ConversationAction.chunk? =
            action.chunk?.toList ++ actions.filterMap ConversationAction.chunk? := by
          cases hchunk : action.chunk? <;> simp [hchunk]
        rw [hchunks, hstep, hsession, List.append_assoc]

/-- The chunks that a run has read. -/
def chunks (actions : List ConversationAction) : List Bytes :=
  actions.filterMap ConversationAction.chunk?

/-- **Serving a stream of requests.**  A client that writes well-formed requests is sent the
responses of the callback to the first of them, up to and with the first response that closes
the connection, and to all of them exactly if the chunks are paced; nothing is rejected. -/
theorem served (highWaterMark : ℕ) (callBack : HttpCallBack) (rs : List RequestText)
    (actions : List ConversationAction) (t : Conversation)
    (hrun : (machine highWaterMark).exec (machine highWaterMark).init actions = some t)
    (huses : ∀ action ∈ actions, action.Uses callBack)
    (hbytes : (chunks actions).flatten = rs.flatMap RequestText.bytes) :
    ∃ front, front <+: rs ∧ (front = rs ↔ Paced rs 0 ((chunks actions).map List.length)) ∧
      Transcript ((handed .new front).map (Reply.onRequest callBack)) t := by
  obtain ⟨made, hobserved, hsession⟩ := session_of_run (fun _ => ⟨rfl, rfl⟩) huses hrun []
  have htranscript : Transcript ([] ++
      (machine highWaterMark).observed offers (machine highWaterMark).init actions) t :=
    (Transcript.new highWaterMark).exec hrun
  rw [hobserved, List.nil_append] at htranscript
  replace hsession : Session.new.run (chunks actions) = some (t.session ([] ++ made)) := hsession
  obtain ⟨front, hfront, hcalls⟩ := Session.calls_of_run (s := .new) rfl hbytes hsession
  have hmade : made = (handed .new front).map Call.onRequest := hcalls
  refine ⟨front, hfront, ?_, ?_⟩
  · refine Iff.trans ?_ (Session.run_iff_paced (s := .new) rfl hbytes)
    have hrequests := Session.requests_of_calls hcalls
    constructor
    · rintro rfl
      exact ⟨_, hsession, hrequests⟩
    · rintro ⟨u, hu, hall⟩
      rw [hsession, Option.some.injEq] at hu
      rw [← hu, hrequests, List.append_cancel_left_eq] at hall
      refine hfront.eq_of_length ?_
      rw [← length_handed Session.new.context.request front, hall, length_handed]
  · have hreplies : made.filterMap (Call.reply? callBack) =
        (handed .new front).map (Reply.onRequest callBack) := by
      rw [hmade, List.filterMap_map, ← List.filterMap_eq_map]
      rfl
    rwa [hreplies] at htranscript

/-- Two requests in three chunks; the first `write` takes one byte. -/
def twoRequests : List ConversationAction :=
  [.established, .read (.data (plainGet.bytes.take 5)) okInput,
    .read (.data (plainGet.bytes.drop 5)) { okInput with writeResponse := takesOne },
    .read (.data hostGet.bytes) okInput, .write takesAll]

theorem served_twoRequests : ∃ t front, front <+: [plainGet, hostGet] ∧
    front = [plainGet, hostGet] ∧
    Transcript ((handed .new front).map (Reply.onRequest okInput.callBack)) t := by
  obtain ⟨t, ht⟩ : ∃ t, (machine 64).exec (machine 64).init twoRequests = some t :=
    Option.isSome_iff_exists.mp (by decide +kernel)
  have huses : ∀ action ∈ twoRequests, action.Uses okInput.callBack := by
    simp [twoRequests, ConversationAction.Uses]
  obtain ⟨front, hfront, hpaced, htranscript⟩ :=
    served 64 okInput.callBack [plainGet, hostGet] twoRequests t ht huses (by decide)
  exact ⟨t, front, hfront, hpaced.mpr (by decide), htranscript⟩

end Conversation

end YxAlpha
