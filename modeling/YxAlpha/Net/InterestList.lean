import Mathlib.Data.List.Perm.Subperm
import YxAlpha.Net.Lifecycle
import YxAlpha.Net.RawTasks
import YxAlpha.Reactor.Selector

/-!
# The interest lists of a server

The server of `Net/TcpServer.lean` keeps of the handler of a connection what it cares for and
whether it is registered, and takes from `epoll_wait` what that allows.  Here the handlers call
their selectors: `handlerCalls` lists the calls of a step, in the order of the source, and
`WatchedServer` runs them beside the server.  `accept` hands out a descriptor that is not open,
and the descriptor of a connection is closed with the last reference to it.

`HandlerCall.track` takes the handler of a connection where the server takes its interest
(`registered_step`), so the interest lists are what the server says they are, and no call of
`epoll_ctl` fails (`WatchedServer.interest_exact`).  A task behind a raw `this` that runs on a
connection that is gone would call a selector that does not know its descriptor, or knows it as
that of another connection; the runs with such a task are left to `Net/RawTasks.lean`.
-/

namespace YxAlpha

/-! ## What a connection calls -/

/-- The events of a handler that cares for reads, or writes. -/
def interestEvents (careRead careWrite : Bool) : EpollEvents :=
  (if careRead then EventHandler.kRead else 0) ||| (if careWrite then EventHandler.kWrite else 0)

/-- The calls that change the interest change the events. -/
theorem interestEvents_set : ∀ careRead careWrite,
    interestEvents true careWrite = interestEvents careRead careWrite ||| EventHandler.kRead ∧
    interestEvents careRead true = interestEvents careRead careWrite ||| EventHandler.kWrite ∧
    interestEvents careRead false =
      interestEvents careRead careWrite &&& ~~~EventHandler.kWrite ∧
    interestEvents false false = interestEvents careRead careWrite &&& EventHandler.kNone := by
  decide

namespace TcpConnection

variable (c : TcpConnection)

/-- `events_` of the handler. -/
def events : EpollEvents := interestEvents c.careRead c.careWrite

/-- The calls of `SendInLoop`. -/
def sendInLoopCalls (r : WriteResult) (data : Bytes) : List HandlerCall :=
  let (d, n) :=
    if c.careWrite = false ∧ c.outputBuf.payloadSize = 0 then c.writeDirectly r data else (c, 0)
  if 0 < data.length - n ∧ d.careWrite = false then [.setCareWrite] else []

/-- The calls of `HandleWrite`. -/
def handleWriteCalls : WriteResult → List HandlerCall
  | .wrote n =>
      if c.careWrite ∧ 0 < n ∧ n = c.outputBuf.payloadSize then [.setStopCareWrite] else []
  | .failed _ => []

/-- The handler of a connection, as it is registered. -/
def handler (fd l : ℕ) : EventHandler := ⟨fd, l, c.events⟩

variable {c}

/-- A new connection cares for nothing. -/
theorem handler_new (highWaterMark : ℕ) (hasWriteComplete hasHighWaterMark : Bool) (fd l : ℕ) :
    (new highWaterMark hasWriteComplete hasHighWaterMark).handler fd l = .new fd l := by
  have hnone : interestEvents false false = EventHandler.kNone := by decide
  rw [handler, events, EventHandler.new, ← hnone]
  rfl

section Track

variable {fd l : ℕ}

theorem track_setCareWrite {d : TcpConnection} (hread : d.careRead = c.careRead)
    (hcare : d.careWrite = true) :
    HandlerCall.trackAll (some (c.handler fd l)) [.setCareWrite] =
      some (some (d.handler fd l)) := by
  have hevents := (interestEvents_set c.careRead c.careWrite).2.1
  show some (some (c.handler fd l).setCareWrite) = _
  rw [EventHandler.setCareWrite, handler, events, ← hevents, handler, events, hread, hcare]

theorem track_setCareRead {d : TcpConnection} (hread : d.careRead = true)
    (hcare : d.careWrite = c.careWrite) :
    HandlerCall.trackAll (some (c.handler fd l)) [.setCareRead] = some (some (d.handler fd l)) := by
  have hevents := (interestEvents_set c.careRead c.careWrite).1
  show some (some (c.handler fd l).setCareRead) = _
  rw [EventHandler.setCareRead, handler, events, ← hevents, handler, events, hread, hcare]

theorem track_same {d : TcpConnection} (hread : d.careRead = c.careRead)
    (hcare : d.careWrite = c.careWrite) :
    HandlerCall.trackAll (some (c.handler fd l)) [] = some (some (d.handler fd l)) := by
  show some (some (c.handler fd l)) = _
  rw [handler, handler, events, events, hread, hcare]

theorem care_writeDirectly (r : WriteResult) (data : Bytes) :
    (c.writeDirectly r data).1.careWrite = c.careWrite ∧
      (c.writeDirectly r data).1.careRead = c.careRead := by
  cases r with
  | wrote n =>
      unfold writeDirectly queueWriteComplete
      dsimp only
      split
      · exact ⟨rfl, rfl⟩
      · split <;> exact ⟨rfl, rfl⟩
  | failed errno => exact ⟨rfl, rfl⟩

/-- `SendInLoop` tells the selector when it starts to care for writes. -/
theorem track_sendInLoop (r : WriteResult) (data : Bytes) :
    HandlerCall.trackAll (some (c.handler fd l)) (c.sendInLoopCalls r data) =
      some (some ((c.sendInLoop r data).handler fd l)) := by
  unfold sendInLoopCalls sendInLoop
  have hcare : ∀ p : TcpConnection × ℕ, p = (if c.careWrite = false ∧ c.outputBuf.payloadSize = 0
      then c.writeDirectly r data else (c, 0)) →
      p.1.careWrite = c.careWrite ∧ p.1.careRead = c.careRead := by
    rintro p rfl
    split
    · exact care_writeDirectly r data
    · exact ⟨rfl, rfl⟩
  generalize (if c.careWrite = false ∧ c.outputBuf.payloadSize = 0 then c.writeDirectly r data
    else (c, 0)) = p at hcare ⊢
  obtain ⟨d, n⟩ := p
  obtain ⟨hwrite, hread⟩ := hcare _ rfl
  dsimp only
  by_cases hrest : 0 < data.length - n
  · cases hbefore : d.careWrite with
    | false =>
        rw [if_pos ⟨hrest, rfl⟩, if_pos hrest]
        exact track_setCareWrite hread rfl
    | true =>
        rw [if_neg (by simp), if_pos hrest]
        exact track_same hread (hbefore.symm.trans hwrite)
  · rw [if_neg (by simp [hrest]), if_neg hrest]
    exact track_same hread hwrite

theorem track_setStopCareWrite {d : TcpConnection} (hread : d.careRead = c.careRead)
    (hcare : d.careWrite = false) :
    HandlerCall.trackAll (some (c.handler fd l)) [.setStopCareWrite] =
      some (some (d.handler fd l)) := by
  have hevents := (interestEvents_set c.careRead c.careWrite).2.2.1
  show some (some (c.handler fd l).setStopCareWrite) = _
  rw [EventHandler.setStopCareWrite, handler, events, ← hevents, handler, events, hread, hcare]

theorem track_setStopCareAll :
    HandlerCall.trackAll (some (c.handler fd l)) [.setStopCareAll] =
      some (some
          (({ c with careRead := false, careWrite := false } : TcpConnection).handler fd l)) := by
  have hevents := (interestEvents_set c.careRead c.careWrite).2.2.2
  show some (some (c.handler fd l).setStopCareAll) = _
  rw [EventHandler.setStopCareAll, handler, events, ← hevents]
  rfl

theorem careWrite_shutDownInLoop : c.shutDownInLoop.careWrite = c.careWrite := by
  unfold shutDownInLoop
  split <;> rfl

theorem careWrite_shutDown : c.shutDown.careWrite = c.careWrite := by
  unfold shutDown
  split
  · exact careWrite_shutDownInLoop
  · rfl

/-- `HandleWrite` tells the selector when it stops to care for writes. -/
theorem track_handleWrite {r : WriteResult} (hr : r.Fits c.outputBuf.payloadSize)
    {d : TcpConnection} (hwrite : c.handleWrite r = some d) :
    HandlerCall.trackAll (some (c.handler fd l)) (c.handleWriteCalls r) =
      some (some (d.handler fd l)) := by
  have hsame : d = c → HandlerCall.trackAll (some (c.handler fd l)) [] =
      some (some (d.handler fd l)) := by
    rintro rfl
    rfl
  unfold handleWrite at hwrite
  unfold handleWriteCalls
  cases r with
  | failed errno =>
      apply hsame
      split at hwrite <;> exact (Option.some.inj hwrite).symm
  | wrote n =>
      dsimp only at hwrite ⊢
      by_cases hcare : c.careWrite = true ∧ 0 < n
      · rw [if_pos hcare.1] at hwrite
        rw [if_pos hcare.2] at hwrite
        obtain ⟨outputBuf, hmove, rfl⟩ := Option.map_eq_some_iff.mp hwrite
        obtain ⟨moved, hmoved, hpayload⟩ := Buffer.moveReadIndex_spec (b := c.outputBuf) hr
        rw [hmove, Option.some.injEq] at hmoved
        subst hmoved
        have hle : n ≤ c.outputBuf.payloadSize := hr
        have hsize : outputBuf.payloadSize = c.outputBuf.payloadSize - n := by
          rw [← outputBuf.length_payload, hpayload, List.length_drop, c.outputBuf.length_payload]
        by_cases hlast : n = c.outputBuf.payloadSize
        · obtain ⟨queued, hdrained⟩ := outputDrained_spec
            (c := { c with socket := c.socket.write c.outputBuf.payload n, outputBuf })
          rw [if_pos ⟨hcare.1, hcare.2, hlast⟩, if_pos (by omega), hdrained]
          exact track_setStopCareWrite rfl rfl
        · rw [if_neg (fun h => hlast h.2.2), if_neg (by omega)]
          exact track_same rfl rfl
      · rw [if_neg (fun h => hcare ⟨h.1, h.2.1⟩)]
        apply hsame
        by_cases hwriting : c.careWrite = true
        · rw [if_pos hwriting] at hwrite
          rw [if_neg (fun hn => hcare ⟨hwriting, hn⟩)] at hwrite
          exact (Option.some.inj hwrite).symm
        · rw [if_neg hwriting] at hwrite
          exact (Option.some.inj hwrite).symm

end Track

end TcpConnection

/-! ## What a server calls -/

/-- The handler of a connection, unless it has been removed. -/
def ServerConn.handler? (c : ServerConn) (fd : ℕ) : Option EventHandler :=
  if c.registered then some (c.conn.handler fd c.io) else none

namespace TcpServer

/-- The handlers that are registered, for the descriptors `fds` of the connections. -/
def handlers (s : TcpServer) (fds : ℕ → ℕ) (id : ℕ) : Option EventHandler :=
  (s.conns id).bind fun c => c.handler? (fds id)

/-- The calls in a callback of the handler: `HandleRead` calls `HandleClose` at the end of the
input, everything else is `HandleWrite`. -/
def callbackCalls (c : TcpConnection) (read : Buffer.ReadResult) (write : WriteResult) :
    EventCallback → List HandlerCall
  | .read => if read = .data [] then [.setStopCareAll] else []
  | .close | .error | .write => c.handleWriteCalls write

/-- The calls in a task. -/
def taskCalls (c : TcpConnection) (write : WriteResult) : ServerTask → List HandlerCall
  | .established _ => [.setCareRead]
  | .destroyed _ => [.setStopCareAll, .remove]
  | .sendInLoop _ data => c.sendInLoopCalls write data
  | .removeInLoop _ | .callback _ _ | .shutDownInLoop _ => []

/-- The calls of a step, with the connection whose handler it is; `fd` is what `accept` returns. -/
def handlerCalls (s : TcpServer) (fd : ℕ) : ServerAction → ℕ × List HandlerCall
  | .newConnection =>
      let io := s.getNextDispatcher.1
      (s.connId + 1, .construct fd io :: if io = 0 then [.setCareRead] else [])
  | .handleEvent l read write =>
      match (s.loops l).phase with
      | .handling (some (id, callback :: _)) _ =>
          (id, (s.conns id).elim [] fun c => callbackCalls c.conn read write callback)
      | _ => (0, [])
  | .runTask l write =>
      match (s.loops l).phase with
      | .calling (task :: _) _ =>
          (task.conn, (s.conns task.conn).elim [] fun c => taskCalls c.conn write task)
      | _ => (0, [])
  | .send id write data =>
      (id, (s.conns id).elim [] fun c =>
        if c.conn.state = .connected then c.conn.sendInLoopCalls write data else [])
  | _ => (0, [])

/-! ### The handlers after an operation -/

variable {s t : TcpServer} {fds : ℕ → ℕ} {id l : ℕ} {c : ServerConn}

theorem handlers_of_conns (hc : s.conns id = some c) : s.handlers fds id = c.handler? (fds id) := by
  rw [handlers, hc, Option.bind_some]

theorem handlers_setConns (c : ServerConn) : (s.setConns id c).handlers fds =
    Function.update (s.handlers fds) id (c.handler? (fds id)) := by
  funext j
  by_cases hj : j = id
  · subst hj
    rw [Function.update_self, handlers_of_conns conns_setConns_self]
  · rw [Function.update_of_ne hj, handlers, conns_setConns_of_ne hj, handlers]

/-- Storing a connection that cares for what it cared for. -/
theorem handlers_setConns_same (hc : s.conns id = some c) {d : ServerConn}
    (hsame : d.handler? (fds id) = c.handler? (fds id)) :
    (s.setConns id d).handlers fds = s.handlers fds := by
  rw [handlers_setConns, hsame, ← handlers_of_conns hc, Function.update_eq_self]

theorem handlers_setTcpConnection (c : ServerConn) (conn : TcpConnection) :
    (s.setTcpConnection id c conn).handlers fds =
      Function.update (s.handlers fds) id
        (if c.registered then some (conn.handler (fds id) c.io) else none) :=
  handlers_setConns (s := s) (c.setConn { conn with queued := [] })

/-- What the calls of a step make of the handlers. -/
structure Calls (s t : TcpServer) (fds : ℕ → ℕ) (made : ℕ × List HandlerCall) : Prop where
  track : HandlerCall.trackAll (s.handlers fds made.1) made.2 = some (t.handlers fds made.1)
  others : ∀ j, j ≠ made.1 → t.handlers fds j = s.handlers fds j

theorem calls_none (hsame : t.handlers fds = s.handlers fds) (id : ℕ) :
    Calls s t fds (id, []) :=
  ⟨by rw [hsame]; rfl, fun j _ => by rw [hsame]⟩

theorem calls_setLoop (loop : ServerLoop) : Calls s (s.setLoop l loop) fds (0, []) :=
  ⟨rfl, fun _ _ => rfl⟩

theorem calls_update (next : Option EventHandler) {made : List HandlerCall}
    (htrack : HandlerCall.trackAll (s.handlers fds id) made = some next)
    (ht : t.handlers fds = Function.update (s.handlers fds) id next) :
    Calls s t fds (id, made) :=
  ⟨by rw [ht, Function.update_self]; exact htrack, fun j hj => by rw [ht, Function.update_of_ne hj]⟩

/-- The handler of a connection that is registered. -/
theorem handlers_of_registered (hc : s.conns id = some c) (hregistered : c.registered = true) :
    s.handlers fds id = some (c.conn.handler (fds id) c.io) := by
  rw [handlers_of_conns hc, ServerConn.handler?, if_pos hregistered]

theorem handlers_setConnectionEstablished (hc : s.conns id = some c)
    (hstate : c.conn.state = .connecting) (hregistered : c.registered = true) :
    (s.setConnectionEstablished id).handlers fds = Function.update (s.handlers fds) id
      (some ({ c.conn with state := .connected, careRead := true }.handler (fds id) c.io)) := by
  simp only [setConnectionEstablished, hc, TcpConnection.setConnectionEstablished, if_pos hstate]
  rw [handlers_setConns]
  simp only [ServerConn.handler?, ServerConn.record, ServerConn.setConn, hregistered, if_true]

theorem Calls.established (hc : s.conns id = some c) (hstate : c.conn.state = .connecting)
    (hregistered : c.registered = true) :
    Calls s (s.setConnectionEstablished id) fds (id, [.setCareRead]) := by
  refine calls_update _ ?_ (handlers_setConnectionEstablished hc hstate hregistered)
  rw [handlers_of_registered hc hregistered]
  exact TcpConnection.track_setCareRead rfl rfl

theorem Calls.destroyed (hc : s.conns id = some c)
    (hstate : c.conn.state = .connected ∨ c.conn.state = .disconnecting)
    (hregistered : c.registered = true) :
    Calls s (s.setConnectionDestroyed id) fds (id, [.setStopCareAll, .remove]) := by
  refine calls_update none ?_ ?_
  · rw [handlers_of_registered hc hregistered]
    rfl
  · simp only [setConnectionDestroyed, hc, TcpConnection.setConnectionDestroyed, if_pos hstate]
    rw [handlers_setConns]
    simp [ServerConn.handler?]

theorem handlers_removeConnectionInLoop :
    (s.removeConnectionInLoop id).handlers fds = s.handlers fds := by
  unfold TcpServer.removeConnectionInLoop
  split
  · rename_i c hc
    have hrecord : ∀ ret, (({ s with
        connections := s.connections.filter fun entry => entry.1 ≠ c.name } : TcpServer).setConns id
          (c.record (.removed ret))).handlers fds = s.handlers fds :=
      fun ret => handlers_setConns_same (s := { s with
        connections := s.connections.filter fun entry => entry.1 ≠ c.name }) hc rfl
    dsimp only
    split <;> exact hrecord _
  · rfl

theorem handlers_removeConnection : (s.removeConnection l id).handlers fds = s.handlers fds := by
  unfold TcpServer.removeConnection
  split
  · exact handlers_removeConnectionInLoop
  · rfl

theorem Calls.handleClose (hc : s.conns id = some c)
    (hstate : c.conn.state = .connected ∨ c.conn.state = .disconnecting)
    (hregistered : c.registered = true) :
    Calls s (s.handleClose id) fds (id, [.setStopCareAll]) := by
  have hhandlers : (s.handleClose id).handlers fds = Function.update (s.handlers fds) id
      (some ({ c.conn with careRead := false, careWrite := false }.handler (fds id) c.io)) := by
    simp only [TcpServer.handleClose, hc, TcpConnection.handleClose, if_pos hstate]
    rw [handlers_removeConnection, handlers_setConns]
    simp only [ServerConn.handler?, ServerConn.record, ServerConn.setConn, hregistered, if_true]
  refine calls_update _ ?_ hhandlers
  rw [handlers_of_registered hc hregistered]
  exact TcpConnection.track_setStopCareAll

theorem Inv.calls_newConnection (hs : s.Inv) :
    Calls s s.newConnection fds (s.handlerCalls (fds (s.connId + 1)) .newConnection) := by
  have hnew : s.handlers fds (s.connId + 1) = none := by
    rw [handlers, hs.conns_next, Option.bind_none]
  have hhandler : s.newConn.conn.handler (fds (s.connId + 1)) s.newConn.io =
      .new (fds (s.connId + 1)) s.newConn.io := TcpConnection.handler_new _ _ _ _ _
  have haccept : (s.accept s.getNextDispatcher.2 s.newConn).handlers fds =
      Function.update (s.handlers fds) (s.connId + 1)
        (some (.new (fds (s.connId + 1)) s.newConn.io)) := by
    rw [← hhandler, TcpServer.accept, handlers_setConns]
    rfl
  rw [hs.newConnection_eq, handlerCalls]
  by_cases hio : s.newConn.io = 0
  · have hself : (s.accept s.getNextDispatcher.2 s.newConn).conns (s.connId + 1) =
        some s.newConn := conns_setConns_self
    have hestablished := @handlers_setConnectionEstablished _ fds _ _ hself rfl rfl
    rw [haccept, Function.update_idem] at hestablished
    rw [if_pos hio]
    simp only [show s.getNextDispatcher.1 = 0 from hio, if_true]
    refine calls_update _ ?_ hestablished
    rw [hnew, ← hio]
    show HandlerCall.trackAll (some (.new (fds (s.connId + 1)) s.newConn.io)) [.setCareRead] = _
    rw [← hhandler]
    exact TcpConnection.track_setCareRead rfl rfl
  · rw [if_neg hio]
    simp only [show ¬ s.getNextDispatcher.1 = 0 from hio, if_false]
    refine calls_update _ ?_ haccept
    rw [hnew]
    rfl

/-! ### The calls of a step -/

/-- A connection that is not gone is registered. -/
theorem Inv.registered_of_connected (hs : s.Inv) (hc : s.conns id = some c)
    (hstate : c.conn.state = .connected) : c.registered = true := by
  obtain ⟨stage, hconn⟩ := hs.conn hc
  rw [hconn.registered]
  rintro rfl
  have hlast := hconn.state
  rcases hconn.history with h | h <;> rw [h, hstate] at hlast <;> cases hlast

theorem Inv.registered_of_not_destroyed (hs : s.Inv) (hc : s.conns id = some c)
    (hgone : ¬ c.Destroyed) : c.registered = true := by
  obtain ⟨stage, hconn⟩ := hs.conn hc
  rw [hconn.registered]
  rintro rfl
  exact hgone ⟨false, by rw [hconn.life]; simp [Stage.life]⟩

/-- What a step does before its first call leaves the handlers alone. -/
theorem Calls.behind {u : TcpServer} {made : ℕ × List HandlerCall} (h : Calls u t fds made)
    (hsame : u.handlers fds = s.handlers fds) : Calls s t fds made :=
  ⟨hsame ▸ h.track, hsame ▸ h.others⟩

/-- An operation of a registered connection. -/
theorem Calls.setTcpConnection (hc : s.conns id = some c) (hregistered : c.registered = true)
    {conn : TcpConnection} {made : List HandlerCall}
    (htrack : HandlerCall.trackAll (some (c.conn.handler (fds id) c.io)) made =
      some (some (conn.handler (fds id) c.io))) :
    Calls s (s.setTcpConnection id c conn) fds (id, made) := by
  refine calls_update _ ?_ (handlers_setTcpConnection c conn)
  rw [handlers_of_registered hc hregistered, htrack, if_pos hregistered]

/-- An operation that changes no interest. -/
theorem handlers_setTcpConnection_same (hc : s.conns id = some c) {conn : TcpConnection}
    (hread : conn.careRead = c.conn.careRead) (hwrite : conn.careWrite = c.conn.careWrite) :
    (s.setTcpConnection id c conn).handlers fds = s.handlers fds := by
  have hhandler : conn.handler (fds id) c.io = c.conn.handler (fds id) c.io := by
    rw [TcpConnection.handler, TcpConnection.events, hread, hwrite]
    rfl
  rw [handlers_setTcpConnection, hhandler, ← Function.update_eq_self id (s.handlers fds),
    Function.update_idem, handlers_of_conns hc]
  rfl

/-- A task behind a raw `this`, on a connection that is not gone. -/
theorem Inv.calls_runRaw {task : ServerTask} {op : TcpConnection → TcpConnection}
    (made : TcpConnection → List HandlerCall) (hs : s.Inv)
    (htrack : ∀ (conn : TcpConnection) fd l, HandlerCall.trackAll (some (conn.handler fd l))
      (made conn) = some (some ((op conn).handler fd l)))
    (hlate : (s.runRaw task op).late = []) :
    Calls s (s.runRaw task op) fds
      (task.conn, (s.conns task.conn).elim [] fun c => made c.conn) := by
  unfold TcpServer.runRaw at hlate ⊢
  cases hc : s.conns task.conn with
  | none => simp [hc] at hlate
  | some c =>
      simp only [hc] at hlate ⊢
      split at hlate
      · simp at hlate
      · split at hlate
        · simp at hlate
        · rename_i hrefs hgone
          rw [if_neg hrefs, if_neg hgone]
          exact Calls.setTcpConnection hc (hs.registered_of_not_destroyed hc hgone) (htrack _ _ _)

theorem Inv.calls_runTask {task : ServerTask} {batch spent : List ServerTask} {write : WriteResult}
    (hs : s.Inv) (hphase : (s.loops l).phase = .calling (task :: batch) spent)
    (hlate : ((s.setLoop l { s.loops l with phase := .calling batch (spent ++ [task]) }).runTask
      write task).late = []) :
    Calls s ((s.setLoop l { s.loops l with phase := .calling batch (spent ++ [task]) }).runTask
      write task) fds
        (task.conn, (s.conns task.conn).elim [] fun c => taskCalls c.conn write task) := by
  set loop : ServerLoop := { s.loops l with phase := .calling batch (spent ++ [task]) }
  have hwaiting : (s.loops l).waiting = task :: loop.waiting := by
    simp [ServerLoop.waiting, hphase, loop]
  have hevents : loop.events = [] := rfl
  cases task with
  | established id =>
      obtain ⟨c, stage, hc, hdue, -, hconn⟩ := hs.popDue hwaiting hevents rfl
      cases stage <;> simp [Stage.due] at hdue
      have hstate : c.conn.state = .connecting := by
        have hlast := hconn.state
        rw [show c.history = [.connecting] from hconn.history] at hlast
        exact (Option.some.inj hlast).symm
      rw [hc]
      exact (Calls.established (s := s.setLoop l loop) hc hstate
        (hconn.registered.mpr (by decide))).behind rfl
  | removeInLoop id =>
      have hsame : ((s.setLoop l loop).removeConnectionInLoop id).handlers fds = s.handlers fds :=
        handlers_removeConnectionInLoop
      cases hc : s.conns (ServerTask.removeInLoop id).conn <;> exact calls_none hsame _
  | destroyed id =>
      obtain ⟨c, stage, hc, hdue, -, hconn⟩ := hs.popDue hwaiting hevents rfl
      cases stage <;> simp [Stage.due] at hdue
      have hstate : c.conn.state = .connected ∨ c.conn.state = .disconnecting := by
        have hlast := hconn.state
        rcases hconn.history with h | h <;> rw [h] at hlast
        · exact Or.inl (Option.some.inj hlast).symm
        · exact Or.inr (Option.some.inj hlast).symm
      rw [hc]
      exact (Calls.destroyed (s := s.setLoop l loop) hc hstate
        (hconn.registered.mpr (by decide))).behind rfl
  | callback id callback =>
      have hsame : ((s.setLoop l loop).runTask write (.callback id callback)).handlers fds =
          s.handlers fds := rfl
      cases hc : s.conns (ServerTask.callback id callback).conn <;> exact calls_none hsame _
  | sendInLoop id data =>
      exact (Inv.calls_runRaw (fun conn => conn.sendInLoopCalls write data)
        (hs.pop hwaiting hevents rfl)
        (fun conn fd l => TcpConnection.track_sendInLoop write data) hlate).behind rfl
  | shutDownInLoop id =>
      exact (Inv.calls_runRaw (fun _ => []) (hs.pop hwaiting hevents rfl)
        (fun conn fd l => TcpConnection.track_same TcpConnection.careRead_shutDownInLoop
          TcpConnection.careWrite_shutDownInLoop) hlate).behind rfl

theorem Inv.calls_handleEvent {callback : EventCallback} {callbacks : List EventCallback}
    {ready : List (ℕ × Revents)} {read : Buffer.ReadResult} {write : WriteResult} (hs : s.Inv)
    (hphase : (s.loops l).phase = .handling (some (id, callback :: callbacks)) ready)
    (hc : s.conns id = some c) (hwrite : write.Fits c.conn.outputBuf.payloadSize) :
    Calls s ((s.setLoop l { s.loops l with phase := .handling (some (id, callbacks)) ready
      }).runCallback id c read write callback) fds
        (id, callbackCalls c.conn read write callback) := by
  obtain ⟨-, d, hd, -, hregistered, hread⟩ :=
    (hs.loops l).events (id, callback :: callbacks) (by simp [ServerLoop.events, hphase])
  rw [hc] at hd
  cases hd
  set u := s.setLoop l { s.loops l with phase := .handling (some (id, callbacks)) ready }
  have hu : u.conns id = some c := hc
  cases callback with
  | close | error | write =>
      obtain ⟨conn, hconn⟩ := Option.isSome_iff_exists.mp (TcpConnection.isSome_handleWrite hwrite)
      simp only [TcpServer.runCallback, hconn]
      exact (Calls.setTcpConnection hu hregistered
        (TcpConnection.track_handleWrite hwrite hconn)).behind rfl
  | read =>
      have hsame : (u.setTcpConnection id c (c.conn.handleRead read)).handlers fds =
          s.handlers fds := handlers_setTcpConnection_same hu rfl rfl
      simp only [TcpServer.runCallback, callbackCalls]
      split
      · have hstate := hs.established hc (hread List.mem_cons_self)
        exact (Calls.handleClose (s := u.setTcpConnection id c (c.conn.handleRead read))
          (c := c.setConn { c.conn.handleRead read with queued := [] }) conns_setConns_self hstate
          hregistered).behind hsame
      · exact calls_none hsame id

theorem Inv.calls_stepLoop {action : ServerAction} (hs : s.Inv)
    (hloop : ∀ k read write, action = .handleEvent k read write → k = l)
    (htask : ∀ k write, action = .runTask k write → k = l)
    (hstep : s.stepLoop l action = some t) (hlate : t.late = []) :
    Calls s t fds (s.handlerCalls (fds (s.connId + 1)) action) := by
  cases action with
  | newConnection =>
      simp only [TcpServer.stepLoop] at hstep
      split at hstep
      · split at hstep <;> cases hstep
        exact hs.calls_newConnection
      · cases hstep
  | handleEvent k read write =>
      obtain rfl := hloop k read write rfl
      simp only [TcpServer.stepLoop] at hstep
      split at hstep
      · rename_i id callback callbacks ready hphase
        split at hstep
        · rename_i c hc
          split at hstep <;> cases hstep
          rename_i hwrite
          simp only [handlerCalls, hphase, hc]
          exact hs.calls_handleEvent hphase hc hwrite
        · cases hstep
      · cases hstep
  | runTask k write =>
      obtain rfl := htask k write rfl
      simp only [TcpServer.stepLoop] at hstep
      split at hstep
      · rename_i task batch spent hphase
        split at hstep <;> cases hstep
        simp only [handlerCalls, hphase]
        exact hs.calls_runTask hphase hlate
      · cases hstep
  | select k ready =>
      simp only [TcpServer.stepLoop] at hstep
      split at hstep
      · split at hstep <;> cases hstep
        exact calls_setLoop _
      · cases hstep
  | startEvent k | finishEvent k | swapPendingFuncs k | finishPendingFuncs k =>
      simp only [TcpServer.stepLoop] at hstep
      split at hstep <;> cases hstep
      exact calls_setLoop _
  | _ => cases hstep

theorem Inv.calls_stepUser {action : ServerAction} (hs : s.Inv) (hc : s.conns id = some c)
    (hid : ∀ j write data, action = .send j write data → j = id)
    (hstep : s.stepUser id c action = some t) :
    Calls s t fds (s.handlerCalls (fds (s.connId + 1)) action) := by
  cases action with
  | acquire j | drop j =>
      simp only [TcpServer.stepUser] at hstep
      split at hstep <;> cases hstep
      refine calls_none ?_ 0
      exact handlers_setConns_same hc rfl
  | callSend j data =>
      simp only [TcpServer.stepUser] at hstep
      split at hstep
      · split at hstep <;> cases hstep
        · refine calls_none ?_ 0
          exact handlers_setConns_same (d := { c with userRefs := c.userRefs - 1 }) hc rfl
        · exact ⟨rfl, fun _ _ => rfl⟩
      · cases hstep
  | callShutDown j =>
      simp only [TcpServer.stepUser] at hstep
      split at hstep
      · split at hstep <;> cases hstep
        · refine calls_none ?_ 0
          exact handlers_setConns_same
            (d := { c.setConn { c.conn with state := .disconnecting } with
            userRefs := c.userRefs - 1 }) hc rfl
        · exact ⟨rfl, fun _ _ => rfl⟩
      · cases hstep
  | queueCall task =>
      simp only [TcpServer.stepUser] at hstep
      split at hstep <;> cases hstep
      refine calls_none ?_ 0
      exact handlers_setConns_same (d := { c with userRefs := c.userRefs + 1 }) hc rfl
  | send j write data =>
      obtain rfl := hid j write data rfl
      simp only [TcpServer.stepUser] at hstep
      split at hstep <;> cases hstep
      simp only [handlerCalls, hc, Option.elim_some, TcpConnection.send]
      split
      · rename_i hstate
        exact Calls.setTcpConnection hc (hs.registered_of_connected hc hstate)
          (TcpConnection.track_sendInLoop write data)
      · refine calls_none ?_ j
        exact handlers_setTcpConnection_same hc rfl rfl
  | shutDown j =>
      simp only [TcpServer.stepUser] at hstep
      split at hstep <;> cases hstep
      refine calls_none ?_ 0
      exact handlers_setTcpConnection_same hc TcpConnection.careRead_shutDown
        TcpConnection.careWrite_shutDown
  | _ => cases hstep

/-- The calls of a step take the handlers where the server takes its interest. -/
theorem Inv.calls_step {action : ServerAction} (hs : s.Inv) (hstep : s.step action = some t)
    (hlate : t.late = []) : Calls s t fds (s.handlerCalls (fds (s.connId + 1)) action) := by
  unfold TcpServer.step at hstep
  rw [if_neg (by simp [hs.failed])] at hstep
  cases action with
  | newConnection => exact hs.calls_stepLoop (l := 0) nofun nofun hstep hlate
  | select l _ | startEvent l | handleEvent l _ _ | finishEvent l | swapPendingFuncs l
  | runTask l _ | finishPendingFuncs l =>
      dsimp only at hstep
      split at hstep
      · refine hs.calls_stepLoop (l := l) ?_ ?_ hstep hlate
        · intro k read write heq
          cases heq <;> rfl
        · intro k write heq
          cases heq <;> rfl
      · cases hstep
  | acquire id | drop id | callSend id _ | callShutDown id | send id _ _ | shutDown id
  | queueCall task =>
      obtain ⟨c, hc, huser⟩ := Option.bind_eq_some_iff.mp hstep
      refine hs.calls_stepUser hc ?_ huser
      intro j write data heq
      cases heq <;> rfl

end TcpServer

/-! ## The events of epoll -/

/-- `HandleEvent`, on the events that `epoll_wait` has returned. -/
def EventHandler.handleEvent (revents : EpollEvents) : List EventCallback :=
  (if revents &&& EPOLLHUP ≠ 0 ∧ revents &&& EPOLLIN = 0 then [.close] else []) ++
    ((if revents &&& EPOLLERR ≠ 0 then [.error] else []) ++
      ((if revents &&& (EPOLLIN ||| EPOLLPRI ||| EPOLLRDHUP) ≠ 0 then [.read] else []) ++
        if revents &&& EPOLLOUT ≠ 0 then [.write] else []))

namespace Revents

def bits (revents : Revents) : EpollEvents :=
  (if revents.epollIn then EPOLLIN else 0) ||| (if revents.epollPri then EPOLLPRI else 0) |||
    (if revents.epollRdHup then EPOLLRDHUP else 0) |||
    (if revents.epollOut then EPOLLOUT else 0) |||
    (if revents.epollErr then EPOLLERR else 0) ||| (if revents.epollHup then EPOLLHUP else 0)

/-- The kernel reports the events that were asked for, and errors and hang-ups. -/
def Within (revents : Revents) (events : EpollEvents) : Prop :=
  revents.bits &&& ~~~(events ||| EPOLLERR ||| EPOLLHUP) = 0

theorem handleEvent_bits (revents : Revents) :
    EventHandler.handleEvent revents.bits = revents.callbacks := by
  obtain ⟨epollIn, epollPri, epollRdHup, epollOut, epollErr, epollHup⟩ := revents
  revert epollIn epollPri epollRdHup epollOut epollErr epollHup
  decide

theorem within_interestEvents : ∀ careRead careWrite epollIn epollPri epollRdHup epollOut epollErr
    epollHup,
    Within ⟨epollIn, epollPri, epollRdHup, epollOut, epollErr, epollHup⟩
      (interestEvents careRead careWrite) ↔
    (epollIn = true ∨ epollPri = true → careRead = true) ∧ epollRdHup = false ∧
      (epollOut = true → careWrite = true) := by
  unfold Within
  decide

theorem reportable_iff (revents : Revents) (c : TcpConnection) :
    revents.Reportable c ↔ revents.Within c.events :=
  (within_interestEvents c.careRead c.careWrite _ _ _ _ _ _).symm

end Revents

/-! ## A server beside its selectors -/

structure WatchedServer where
  server : TcpServer
  reactors : Reactors
  /-- The connections whose socket is open. -/
  opened : List ℕ
  /-- The most sockets that have been open. -/
  peak : ℕ

namespace WatchedServer

def new (name : ConnName) (numThreads : ℕ) (hasWriteComplete : Bool) : WatchedServer where
  server := .new name numThreads hasWriteComplete
  reactors := .new
  opened := []
  peak := 0

/-- What the kernel keeps to: `accept` returns a descriptor that is not open, and `epoll_wait`
fills no more than `e_events_`. -/
def Answers (w : WatchedServer) (fds : ℕ → ℕ) : ServerAction → Prop
  | .newConnection => ∀ id ∈ w.opened, fds id ≠ fds (w.server.connId + 1)
  | .select l ready => ready.length ≤ (w.reactors.selectors l).eEventsSize
  | _ => True

instance (w : WatchedServer) (fds : ℕ → ℕ) : ∀ action, Decidable (w.Answers fds action)
  | .newConnection =>
      inferInstanceAs (Decidable (∀ id ∈ w.opened, fds id ≠ fds (w.server.connId + 1)))
  | .select l ready =>
      inferInstanceAs (Decidable (ready.length ≤ (w.reactors.selectors l).eEventsSize))
  | .startEvent _ | .handleEvent _ _ _ | .finishEvent _ | .swapPendingFuncs _ | .runTask _ _
  | .finishPendingFuncs _ | .acquire _ | .drop _ | .callSend _ _ | .callShutDown _ | .queueCall _
  | .send _ _ _ | .shutDown _ => isTrue trivial

/-- `Socket::~Socket` closes the descriptors of the connections that nothing references. -/
def release (fds : ℕ → ℕ) (w : WatchedServer) : WatchedServer :=
  let gone := w.opened.filter fun id => w.server.strongRefs id = 0
  { w with
    reactors := gone.foldl (fun r id => r.close (fds id)) w.reactors
    opened := w.opened.filter fun id => w.server.strongRefs id ≠ 0 }

/-- The sockets that are open when the step has returned from `accept`. -/
def accepted (w : WatchedServer) : ServerAction → List ℕ
  | .newConnection => w.opened ++ [w.server.connId + 1]
  | _ => w.opened

/-- `Select` has returned, and has grown `e_events_`. -/
def polled (r : Reactors) : ServerAction → Reactors
  | .select l ready => r.select l ready.length
  | _ => r

/-- A step of the server, with the calls of its handlers; the sockets have the descriptors
`fds`. -/
def step (fds : ℕ → ℕ) (w : WatchedServer) (action : ServerAction) : Option WatchedServer :=
  if w.Answers fds action then
    (w.server.step action).map fun server =>
      let made := w.server.handlerCalls (fds (w.server.connId + 1)) action
      let opened := w.accepted action
      release fds
        { server
          reactors := polled (w.reactors.calls made.1 made.2) action
          opened
          peak := max w.peak opened.length }
  else none

def machine (fds : ℕ → ℕ) (name : ConnName) (numThreads : ℕ) (hasWriteComplete : Bool) :
    Machine WatchedServer ServerAction where
  init := new name numThreads hasWriteComplete
  step := step fds

/-- The interest lists are what the server takes them for. -/
structure InterestExact (fds : ℕ → ℕ) (w : WatchedServer) : Prop where
  /-- No call of `epoll_ctl` has failed. -/
  errors : ∀ l, (w.reactors.selectors l).errors = []
  /-- The lists hold the handlers of the connections that are registered, each with the
  events that its connection cares for, and nothing else. -/
  interest : ∀ l fd id events, (w.reactors.selectors l).interest fd = some (id, events) ↔
    ∃ c, w.server.conns id = some c ∧ c.registered = true ∧ c.io = l ∧ fds id = fd ∧
      c.conn.events = events
  /-- Their connections are referenced, and their descriptors open. -/
  alive : ∀ l fd id events, (w.reactors.selectors l).interest fd = some (id, events) →
    0 < w.server.strongRefs id ∧ id ∈ w.opened
  /-- What epoll may report is what the server expects of it. -/
  reports : ∀ l id revents, w.server.reports l (id, revents) = true ↔
    ∃ fd events, (w.reactors.selectors l).interest fd = some (id, events) ∧ revents.Within events
  /-- `e_events_` stays small. -/
  size : ∀ l, (w.reactors.selectors l).eEventsSize ≤ max Selector.kEEventsSize (2 * w.peak)

/-! ### The invariant -/

structure Inv (fds : ℕ → ℕ) (w : WatchedServer) : Prop where
  server : w.server.Inv
  tracks : Tracks w.reactors (w.server.handlers fds)
  opened : ∀ id h, w.server.handlers fds id = some h → id ∈ w.opened
  injective : ∀ i ∈ w.opened, ∀ j ∈ w.opened, fds i = fds j → i = j
  size : ∀ l, (w.reactors.selectors l).eEventsSize ≤ max Selector.kEEventsSize (2 * w.peak)
  peak : w.opened.length ≤ w.peak

variable {fds : ℕ → ℕ} {w v : WatchedServer}

theorem inv_new (name : ConnName) (numThreads : ℕ) (hasWriteComplete : Bool) :
    Inv fds (new name numThreads hasWriteComplete) where
  server := TcpServer.inv_new name numThreads hasWriteComplete
  tracks := Tracks.new
  opened := nofun
  injective := nofun
  size _ := le_max_left _ _
  peak := Nat.le_refl 0

/-- The handler of a connection has its descriptor and is registered in its loop. -/
theorem handlers_eq_some {s : TcpServer} {id : ℕ} {h : EventHandler} :
    s.handlers fds id = some h ↔
      ∃ c, s.conns id = some c ∧ c.registered = true ∧ h = c.conn.handler (fds id) c.io := by
  rw [TcpServer.handlers, Option.bind_eq_some_iff]
  refine exists_congr fun c => and_congr_right fun _ => ?_
  rw [ServerConn.handler?]
  split
  · rename_i hregistered
    rw [Option.some.injEq, and_iff_right hregistered, eq_comm]
  · rename_i hregistered
    exact iff_of_false nofun fun h => hregistered h.1

theorem tracks_foldl_close {r : Reactors} {registered : ℕ → Option EventHandler}
    (hr : Tracks r registered) {gone : List ℕ}
    (hgone : ∀ id ∈ gone, ∀ other h, registered other = some h → h.fd ≠ fds id) :
    Tracks (gone.foldl (fun r id => r.close (fds id)) r) registered ∧
      ∀ l, ((gone.foldl (fun r id => r.close (fds id)) r).selectors l).eEventsSize =
        (r.selectors l).eEventsSize := by
  induction gone generalizing r with
  | nil => exact ⟨hr, fun _ => rfl⟩
  | cons id gone ih =>
      rw [List.forall_mem_cons] at hgone
      exact ih (hr.close hgone.1) hgone.2

/-- A socket that is closed is that of no handler: nothing is left in the lists for the kernel
to drop. -/
theorem Inv.release (hw : Inv fds w) : Inv fds (release fds w) := by
  have hfree : ∀ id ∈ w.opened.filter fun id => w.server.strongRefs id = 0,
      ∀ other h, w.server.handlers fds other = some h → h.fd ≠ fds id := by
    intro id hid other h hother hfd
    rw [List.mem_filter, decide_eq_true_eq] at hid
    obtain ⟨c, hc, hregistered, rfl⟩ := handlers_eq_some.mp hother
    have hrefs := hw.server.strongRefs_pos hc hregistered
    obtain rfl := hw.injective other (hw.opened other _ hother) id hid.1 hfd
    omega
  obtain ⟨htracks, hsize⟩ := tracks_foldl_close hw.tracks hfree
  refine ⟨hw.server, htracks, ?_, ?_, fun l => (hsize l).trans_le (hw.size l), ?_⟩
  · intro id h hid
    obtain ⟨c, hc, hregistered, -⟩ := handlers_eq_some.mp hid
    have hrefs := hw.server.strongRefs_pos hc hregistered
    exact List.mem_filter.mpr ⟨hw.opened id h hid, by simpa using hrefs.ne'⟩
  · intro i hi j hj hfd
    exact hw.injective i (List.mem_of_mem_filter hi) j (List.mem_of_mem_filter hj) hfd
  · exact (List.length_filter_le _ _).trans hw.peak

theorem Inv.accepted {action : ServerAction} (hw : Inv fds w) (hanswers : w.Answers fds action) :
    ∀ i ∈ w.accepted action, ∀ j ∈ w.accepted action, fds i = fds j → i = j := by
  cases action with
  | newConnection =>
      intro i hi j hj hfd
      rcases List.mem_append.mp hi with hi | hi <;> rcases List.mem_append.mp hj with hj | hj
      · exact hw.injective i hi j hj hfd
      · rw [List.mem_singleton.mp hj] at hfd
        exact absurd hfd (hanswers i hi)
      · rw [List.mem_singleton.mp hi] at hfd
        exact absurd hfd.symm (hanswers j hj)
      · rw [List.mem_singleton.mp hi, List.mem_singleton.mp hj]
  | _ => exact hw.injective

/-- Only `NewConnection` makes a handler, for the descriptor that it has been passed. -/
theorem construct_mem_handlerCalls {s : TcpServer} {action : ServerAction} {fd fd' l : ℕ}
    (hmem : .construct fd' l ∈ (s.handlerCalls fd action).2) :
    action = .newConnection ∧ fd' = fd ∧ (s.handlerCalls fd action).1 = s.connId + 1 := by
  have hsend : ∀ (c : TcpConnection) r data,
      HandlerCall.construct fd' l ∉ c.sendInLoopCalls r data := by
    intro c r data
    unfold TcpConnection.sendInLoopCalls
    dsimp only
    split <;> simp
  have hwrite : ∀ (c : TcpConnection) r, HandlerCall.construct fd' l ∉ c.handleWriteCalls r := by
    intro c r
    unfold TcpConnection.handleWriteCalls
    split
    · split <;> simp
    · simp
  cases action with
  | newConnection =>
      refine ⟨rfl, ?_, rfl⟩
      simp only [TcpServer.handlerCalls, List.mem_cons] at hmem
      rcases hmem with heq | hmem
      · exact (HandlerCall.construct.inj heq).1
      · split at hmem <;> simp at hmem
  | handleEvent k read write =>
      simp only [TcpServer.handlerCalls] at hmem
      split at hmem
      · rename_i id callback callbacks ready hphase
        cases hc : s.conns id with
        | none => simp [hc] at hmem
        | some c =>
            rw [hc, Option.elim_some] at hmem
            cases callback with
            | read =>
                simp only [TcpServer.callbackCalls] at hmem
                split at hmem <;> simp at hmem
            | close | error | write => exact absurd hmem (hwrite _ _)
      · cases hmem
  | runTask k write =>
      simp only [TcpServer.handlerCalls] at hmem
      split at hmem
      · rename_i task batch spent hphase
        cases hc : s.conns task.conn with
        | none => simp [hc] at hmem
        | some c =>
            rw [hc, Option.elim_some] at hmem
            cases task with
            | sendInLoop id data => exact absurd hmem (hsend _ _ _)
            | established | destroyed | removeInLoop | callback | shutDownInLoop =>
                simp [TcpServer.taskCalls] at hmem
      · cases hmem
  | send id write data =>
      simp only [TcpServer.handlerCalls] at hmem
      cases hc : s.conns id with
      | none => simp [hc] at hmem
      | some c =>
          rw [hc, Option.elim_some] at hmem
          split at hmem
          · exact absurd hmem (hsend _ _ _)
          · cases hmem
  | _ => cases hmem

/-- The connections of a batch are registered, each of them once. -/
theorem Inv.length_ready (hw : Inv fds w) {l : ℕ} {ready : List (ℕ × Revents)} {t : TcpServer}
    (ht : w.server.step (.select l ready) = some t) : ready.length ≤ w.opened.length := by
  have hguard : (ready.map Prod.fst).Nodup ∧ ready.all (w.server.reports l) := by
    unfold TcpServer.step at ht
    rw [if_neg (by simp [hw.server.failed])] at ht
    dsimp only at ht
    split at ht
    · simp only [TcpServer.stepLoop] at ht
      split at ht
      · exact (Option.ite_none_right_eq_some.mp ht).1
      · cases ht
    · cases ht
  have hsubset : ready.map Prod.fst ⊆ w.opened := by
    intro id hid
    obtain ⟨event, hevent, rfl⟩ := List.mem_map.mp hid
    obtain ⟨-, c, hc, -, hregistered, -⟩ :=
      TcpServer.eventInv_of_reports (List.all_eq_true.mp hguard.2 event hevent)
    exact hw.opened event.1 _ (TcpServer.handlers_of_registered hc hregistered)
  calc ready.length = (ready.map Prod.fst).length := (List.length_map _).symm
    _ ≤ w.opened.length := (List.Nodup.subperm hguard.1 hsubset).length_le

theorem Inv.step {action : ServerAction} (hw : Inv fds w)
    (hlate : ∀ t, w.server.step action = some t → t.late = [])
    (hstep : step fds w action = some v) : Inv fds v := by
  rw [WatchedServer.step, Option.ite_none_right_eq_some] at hstep
  obtain ⟨hanswers, hstep⟩ := hstep
  obtain ⟨t, ht, rfl⟩ := Option.map_eq_some_iff.mp hstep
  apply Inv.release
  have hcalls : TcpServer.Calls w.server t fds _ := hw.server.calls_step ht (hlate t ht)
  set made := w.server.handlerCalls (fds (w.server.connId + 1)) action with hmade
  have hhandlers : Function.update (w.server.handlers fds) made.1 (t.handlers fds made.1) =
      t.handlers fds := by
    funext j
    by_cases hj : j = made.1
    · rw [hj, Function.update_self]
    · rw [Function.update_of_ne hj, hcalls.others j hj]
  have htracks : Tracks (w.reactors.calls made.1 made.2) (t.handlers fds) := by
    rw [← hhandlers]
    refine hw.tracks.calls hcalls.track ?_
    intro fd l hmem other h hother _ _ hfd
    obtain ⟨rfl, rfl, -⟩ := construct_mem_handlerCalls hmem
    obtain ⟨c, hc, hregistered, rfl⟩ := handlers_eq_some.mp hother
    exact hanswers other (hw.opened other _ hother) hfd
  have hsize := w.reactors.eEventsSize_calls made.1 made.2
  refine ⟨hw.server.step ht, ?_, ?_, hw.accepted hanswers, ?_, le_max_right _ _⟩
  · cases action with
    | select l ready => exact htracks.select l ready.length
    | _ => exact htracks
  · intro id h hid
    have hkept : id ∈ w.opened → id ∈ w.accepted action := by
      cases action with
      | newConnection => exact List.mem_append_left _
      | _ => exact fun hmem => hmem
    by_cases hmoved : id = made.1
    · have htrack := hcalls.track
      rw [← hmoved, hid] at htrack
      cases hbefore : w.server.handlers fds id with
      | some g => exact hkept (hw.opened id g hbefore)
      | none =>
          rw [hbefore] at htrack
          obtain ⟨fd, l, hmem⟩ := HandlerCall.construct_of_trackAll htrack
          obtain ⟨rfl, -, hnew⟩ := construct_mem_handlerCalls hmem
          exact List.mem_append_right _ (List.mem_singleton.mpr (hmoved.trans hnew))
    · exact hkept (hw.opened id h ((hcalls.others id hmoved).symm.trans hid))
  · intro l
    have hbefore : (w.reactors.selectors l).eEventsSize ≤
        max Selector.kEEventsSize (2 * max w.peak (w.accepted action).length) := by
      have := hw.size l
      omega
    cases action with
    | select k ready =>
        have hready := hw.length_ready ht
        by_cases hl : l = k
        · subst hl
          simp only [polled, Reactors.select, Function.update_self, Selector.select, hsize]
          split
          · rename_i hfull
            simp only [WatchedServer.accepted]
            omega
          · exact (hsize l).trans_le hbefore
        · simp only [polled, Reactors.select, Function.update_of_ne hl]
          exact (hsize l).trans_le hbefore
    | _ => exact (hsize l).trans_le hbefore

theorem Inv.exact (hw : Inv fds w) : InterestExact fds w where
  errors := hw.tracks.errors
  interest l fd id events := by
    rw [hw.tracks.interest, handlers_eq_some]
    refine exists_congr fun c => and_congr_right fun _ => and_congr_right fun _ => ?_
    rw [TcpConnection.handler, EventHandler.mk.injEq]
    constructor
    · rintro ⟨rfl, rfl, rfl⟩
      exact ⟨rfl, rfl, rfl⟩
    · rintro ⟨rfl, rfl, rfl⟩
      exact ⟨rfl, rfl, rfl⟩
  alive l fd id events hentry := by
    rw [hw.tracks.interest] at hentry
    obtain ⟨c, hc, hregistered, -⟩ := handlers_eq_some.mp hentry
    exact ⟨hw.server.strongRefs_pos hc hregistered, hw.opened id _ hentry⟩
  reports l id revents := by
    simp only [hw.tracks.interest, handlers_eq_some, TcpServer.reports]
    constructor
    · intro hreports
      split at hreports
      · rename_i c hc
        simp only [decide_eq_true_eq] at hreports
        obtain ⟨rfl, hregistered, hevents⟩ := hreports
        exact ⟨fds id, c.conn.events, ⟨c, hc, hregistered, rfl⟩,
          (revents.reportable_iff c.conn).mp hevents⟩
      · cases hreports
    · rintro ⟨fd, events, ⟨c, hc, hregistered, heq⟩, hwithin⟩
      cases heq
      simp only [hc, decide_eq_true_eq]
      exact ⟨trivial, hregistered, (revents.reportable_iff c.conn).mpr hwithin⟩
  size := hw.size

/-- A call of another thread queues its task in time. -/
def QueuedInTime (w : WatchedServer) (action : ServerAction) : Prop := w.server.QueuedInTime action

instance (w : WatchedServer) (action : ServerAction) : Decidable (w.QueuedInTime action) :=
  inferInstanceAs (Decidable (w.server.QueuedInTime action))

end WatchedServer

end YxAlpha
