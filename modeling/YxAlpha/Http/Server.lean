import YxAlpha.Http.Scan

/-!
# Messages on an HTTP connection

`HttpServer::OnMessage` is called once for every chunk that `HandleRead` has put
into the input buffer.  It parses once, answers a rejected request, and hands a
finished request to `OnRequest`.  What it calls is logged in `calls`, in order;
nothing in it depends on what those calls do.

`Session` is a connection with the unread bytes in place of the input buffer,
and `Session.run` the run without a number of iterations: it is `none` exactly
when some call of the parser never returns (`HttpConnection.exists_run_iff`).
-/

namespace YxAlpha

/-- What `OnMessage` calls. -/
inductive Call
  | send (data : Bytes)
  | shutDown
  | onRequest (request : HttpRequest)

def badRequest : Bytes := ascii "HTTP/1.1 400 Bad Request\r\n\r\n"

/-- The request a call hands to `OnRequest`. -/
def Call.request? : Call → Option HttpRequest
  | .onRequest request => some request
  | _ => none

/-- The part of `OnMessage` behind the parser: the context it leaves and the
calls it makes. -/
def respond (ok : Bool) (context : HttpContext) : HttpContext × List Call :=
  let rejection := if ok then [] else [.send badRequest, .shutDown]
  if context.isDone then (context.reset, rejection ++ [.onRequest context.request])
  else (context, rejection)

/-- A connection as `OnMessage` sees it. -/
structure HttpConnection where
  context : HttpContext
  inputBuf : Buffer
  calls : List Call

namespace HttpConnection

def new : HttpConnection where
  context := .new
  inputBuf := .new
  calls := []

/-- The requests handed to `OnRequest` so far. -/
def requests (c : HttpConnection) : List HttpRequest := c.calls.filterMap Call.request?

/-- `HandleRead` has read a chunk. -/
def receive (c : HttpConnection) (chunk : Bytes) : HttpConnection :=
  { c with inputBuf := c.inputBuf.readFd (.data chunk) }

def onMessage (fuel : ℕ) (c : HttpConnection) : Option HttpConnection :=
  (c.context.parseRequest fuel c.inputBuf).map fun (ok, context, buf) =>
    ⟨(respond ok context).1, buf, c.calls ++ (respond ok context).2⟩

/-- The connection after the chunks, when every call of the parser returns
within `fuel` iterations. -/
def run (fuel : ℕ) (c : HttpConnection) : List Bytes → Option HttpConnection
  | [] => some c
  | chunk :: chunks => ((c.receive chunk).onMessage fuel).bind fun d => run fuel d chunks

end HttpConnection

/-! ## Sessions -/

structure Session where
  context : HttpContext
  unread : Bytes
  calls : List Call

namespace Session

def new : Session := ⟨.new, [], []⟩

def requests (s : Session) : List HttpRequest := s.calls.filterMap Call.request?

def receive (s : Session) (chunk : Bytes) : Session := { s with unread := s.unread ++ chunk }

/-- The session after `OnMessage`, given how the parser ended. -/
def finish (s : Session) (t : Scan) : Session :=
  ⟨(respond t.ok t.context).1, t.unread, s.calls ++ (respond t.ok t.context).2⟩

def runWithin (fuel : ℕ) (s : Session) : List Bytes → Option Session
  | [] => some s
  | chunk :: chunks =>
      (Scan.loop fuel ⟨s.context, s.unread ++ chunk, true, false⟩).bind fun t =>
        runWithin fuel (s.finish t) chunks

def run (s : Session) : List Bytes → Option Session
  | [] => some s
  | chunk :: chunks =>
      (Scan.result s.context (s.unread ++ chunk)).bind fun t => run (s.finish t) chunks

theorem runWithin_mono {fuel larger : ℕ} (hle : fuel ≤ larger) {s t : Session}
    {chunks : List Bytes} (h : s.runWithin fuel chunks = some t) :
    s.runWithin larger chunks = some t := by
  induction chunks generalizing s with
  | nil => exact h
  | cons chunk chunks ih =>
      obtain ⟨u, hloop, hrest⟩ := Option.bind_eq_some_iff.mp h
      rw [runWithin, Scan.loop_mono hle hloop]
      exact ih hrest

/-- Enough iterations give the run, and a run needs only so many. -/
theorem exists_runWithin_iff {s t : Session} {chunks : List Bytes} :
    (∃ fuel, s.runWithin fuel chunks = some t) ↔ s.run chunks = some t := by
  induction chunks generalizing s with
  | nil => simp [runWithin, run]
  | cons chunk chunks ih =>
      simp only [runWithin, run, Option.bind_eq_some_iff, ← Scan.ends_iff, ← ih]
      constructor
      · rintro ⟨fuel, u, hloop, hrest⟩
        exact ⟨u, ⟨fuel, hloop⟩, fuel, hrest⟩
      · rintro ⟨u, ⟨fuel, hloop⟩, more, hrest⟩
        exact ⟨max fuel more, u, Scan.loop_mono (le_max_left _ _) hloop,
          runWithin_mono (le_max_right _ _) hrest⟩

end Session

namespace HttpConnection

def session (c : HttpConnection) : Session := ⟨c.context, c.inputBuf.payload, c.calls⟩

@[simp] theorem session_new : new.session = .new := by
  simp [session, new, Session.new]

theorem map_session_onMessage (fuel : ℕ) (c : HttpConnection) :
    (c.onMessage fuel).map session =
      (Scan.loop fuel ⟨c.context, c.inputBuf.payload, true, false⟩).map c.session.finish := by
  have hloop := Parse.map_scan_loop fuel ⟨c.context, c.inputBuf, true, false⟩
  rw [show Parse.scan ⟨c.context, c.inputBuf, true, false⟩ =
    ⟨c.context, c.inputBuf.payload, true, false⟩ from rfl] at hloop
  rw [onMessage, HttpContext.parseRequest, ← hloop]
  cases Parse.loop fuel ⟨c.context, c.inputBuf, true, false⟩ <;> rfl

theorem map_session_run (fuel : ℕ) (c : HttpConnection) (chunks : List Bytes) :
    (c.run fuel chunks).map session = c.session.runWithin fuel chunks := by
  induction chunks generalizing c with
  | nil => rfl
  | cons chunk chunks ih =>
      have hmessage := (c.receive chunk).map_session_onMessage fuel
      have hunread : (c.receive chunk).inputBuf.payload = c.session.unread ++ chunk :=
        Buffer.payload_readFd _ _
      rw [hunread] at hmessage
      rw [run, Session.runWithin]
      cases hcall : (c.receive chunk).onMessage fuel with
      | none =>
          rw [hcall, Option.map_none, eq_comm, Option.map_eq_none_iff] at hmessage
          rw [show c.session.context = (c.receive chunk).context from rfl, hmessage]
          rfl
      | some d =>
          rw [hcall, Option.map_some, eq_comm, Option.map_eq_some_iff] at hmessage
          obtain ⟨t, ht, hd⟩ := hmessage
          rw [show c.session.context = (c.receive chunk).context from rfl, ht, Option.bind_some,
            Option.bind_some, ih, ← hd]
          rfl

/-- A run of the connection is a run of its session. -/
theorem exists_run_iff {c : HttpConnection} {chunks : List Bytes} {t : Session} :
    (∃ fuel d, c.run fuel chunks = some d ∧ d.session = t) ↔ c.session.run chunks = some t := by
  rw [← Session.exists_runWithin_iff]
  apply exists_congr
  intro fuel
  rw [← map_session_run, Option.map_eq_some_iff]

theorem exists_run_isSome_iff {c : HttpConnection} {chunks : List Bytes} :
    (∃ fuel, (c.run fuel chunks).isSome) ↔ (c.session.run chunks).isSome := by
  simp only [Option.isSome_iff_exists, ← exists_run_iff]
  constructor
  · rintro ⟨fuel, d, h⟩
    exact ⟨d.session, fuel, d, h, rfl⟩
  · rintro ⟨t, fuel, d, h, _⟩
    exact ⟨fuel, d, h⟩

end HttpConnection

end YxAlpha
