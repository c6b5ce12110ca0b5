import YxAlpha.Net.Lifecycle

/-!
# Hang-ups and errors

What a connection makes of the events of its fd.  `EventHandler::HandleEvent` calls up to
four callbacks, and the constructor of `TcpConnection` binds the close and the error
callback to `HandleWrite`, as it does the write callback: `HandleClose` and `HandleError`
are only called by `HandleRead`, when `read` returns 0 or fails.

So a hang-up closes a connection exactly if a read callback of the same event set reads 0
bytes, an error event runs `HandleError` exactly if it comes with a read that fails, and
over a run a connection that hung up is closed exactly if it has read 0 bytes at some time
(`handlers_reached_iff`).
-/

namespace YxAlpha

/-- What happens to a connection between two callbacks of one `HandleEvent`: its message
callback calls `Send` and `ShutDown`, and another thread calls `ShutDown`. -/
inductive BetweenCall
  | send (write : KernelWrite) (data : Bytes)
  | shutDown
  | threadShutDown

/-- What the environment does during one `HandleEvent`. -/
structure EventInput where
  read : Buffer.ReadResult
  write : EventCallback → KernelWrite
  /-- The calls after a callback and before the next one. -/
  between : EventCallback → List BetweenCall

namespace Revents

/-- The peer has hung up, and there is nothing to read. -/
def HangUp (revents : Revents) : Prop := revents.epollHup = true ∧ revents.epollIn = false

/-- The read callback is called. -/
def Reads (revents : Revents) : Prop :=
  revents.epollIn = true ∨ revents.epollPri = true ∨ revents.epollRdHup = true

instance (revents : Revents) : Decidable revents.HangUp := by unfold HangUp; infer_instance

end Revents

/-- What a `HandleEvent` has done. -/
structure Handled where
  conn : TcpConnection
  /-- The connection as `close_call_back_` has got it, for each call. -/
  closeCallBacks : List TcpConnection
  /-- The runs of `HandleError`. -/
  handleErrors : ℕ

namespace Handled

/-- The close is started: `close_call_back_` is invoked, with the interest cleared. -/
def Closes (h : Handled) : Prop :=
  ∃ closed, h.closeCallBacks = [closed] ∧ closed.careRead = false ∧ closed.careWrite = false

end Handled

namespace TcpConnection

/-- The connection has been established and is not destroyed. -/
def Established (c : TcpConnection) : Prop := c.state = .connected ∨ c.state = .disconnecting

instance (c : TcpConnection) : Decidable c.Established := by unfold Established; infer_instance

def runBetween (c : TcpConnection) : BetweenCall → TcpConnection
  | .send write data => c.send (write data.length) data
  | .shutDown => c.shutDown
  | .threadShutDown => if c.state = .connected then { c with state := .disconnecting } else c

/-- A callback, as the constructor of `TcpConnection` binds it. -/
def runCallback (c : TcpConnection) (read : Buffer.ReadResult) (write : KernelWrite) :
    EventCallback → Option Handled
  | .read =>
      match read with
      | .data [] => (c.handleRead read).handleClose.map fun conn => ⟨conn, [conn], 0⟩
      | .data (_ :: _) => some ⟨c.handleRead read, [], 0⟩
      | .failed _ => some ⟨c.handleRead read, [], 1⟩
  | .close | .error | .write =>
      (c.handleWrite (write c.outputBuf.payloadSize)).map fun conn => ⟨conn, [], 0⟩

def runCallbacks (input : EventInput) : TcpConnection → List EventCallback → Option Handled
  | c, [] => some ⟨c, [], 0⟩
  | c, callback :: callbacks =>
      (c.runCallback input.read (input.write callback) callback).bind fun first =>
        (runCallbacks input ((input.between callback).foldl runBetween first.conn) callbacks).map
          fun rest =>
            { conn := rest.conn
              closeCallBacks := first.closeCallBacks ++ rest.closeCallBacks
              handleErrors := first.handleErrors + rest.handleErrors }

/-- `HandleEvent` of the handler of a connection. -/
def handleEvent (c : TcpConnection) (revents : Revents) (input : EventInput) : Option Handled :=
  c.runCallbacks input revents.callbacks

/-! ## One event set -/

variable {c : TcpConnection}

theorem Established.runBetween (hc : c.Established) (call : BetweenCall) :
    (c.runBetween call).Established := by
  cases call with
  | send write data =>
      unfold Established TcpConnection.runBetween
      rw [state_send (write data.length).2]
      exact hc
  | shutDown =>
      rcases c.state_shutDown with hsame | ⟨-, hmoved⟩
      · unfold Established TcpConnection.runBetween
        rw [hsame]
        exact hc
      · exact Or.inr hmoved
  | threadShutDown =>
      unfold TcpConnection.runBetween
      dsimp only
      split
      · exact Or.inr rfl
      · exact hc

theorem Established.foldl_runBetween (hc : c.Established) (calls : List BetweenCall) :
    (calls.foldl TcpConnection.runBetween c).Established := by
  induction calls generalizing c with
  | nil => exact hc
  | cons call calls ih => exact ih (hc.runBetween call)

theorem Established.handleClose (hc : c.Established) :
    c.handleClose = some { c with careRead := false, careWrite := false } := if_pos hc

theorem isSome_runCallback (read : Buffer.ReadResult) (write : KernelWrite)
    {callback : EventCallback} (hc : callback = .read → c.Established) :
    (c.runCallback read write callback).isSome := by
  cases callback with
  | read =>
      cases read with
      | data bytes =>
          cases bytes with
          | nil =>
              rw [runCallback, Option.isSome_map,
                Established.handleClose (c := c.handleRead (.data [])) (hc rfl)]
              rfl
          | cons byte bytes => rfl
      | failed errno => rfl
  | close | error | write =>
      rw [runCallback, Option.isSome_map]
      exact isSome_handleWrite (write c.outputBuf.payloadSize).2

section RunCallback

variable {read : Buffer.ReadResult} {write : KernelWrite} {callback : EventCallback} {h : Handled}
  (hrun : c.runCallback read write callback = some h)
include hrun

theorem Established.runCallback (hc : c.Established) : h.conn.Established := by
  cases callback with
  | read =>
      cases read with
      | data bytes =>
          cases bytes with
          | nil =>
              rw [TcpConnection.runCallback,
                Established.handleClose (c := c.handleRead (.data [])) hc] at hrun
              cases hrun
              exact hc
          | cons byte bytes =>
              cases hrun
              exact hc
      | failed errno =>
          cases hrun
          exact hc
  | close | error | write =>
      obtain ⟨conn, hconn, rfl⟩ := Option.map_eq_some_iff.mp hrun
      unfold Established
      rw [state_handleWrite (write c.outputBuf.payloadSize).2 hconn]
      exact hc

/-- The read callback closes, and no other. -/
theorem closeCallBacks_runCallback : (callback = .read ∧ read = .data [] → h.Closes) ∧
    (¬ (callback = .read ∧ read = .data []) → h.closeCallBacks = []) := by
  cases callback with
  | read =>
      cases read with
      | data bytes =>
          cases bytes with
          | nil =>
              obtain ⟨closed, hclosed, rfl⟩ := Option.map_eq_some_iff.mp hrun
              rw [TcpConnection.handleClose, Option.ite_none_right_eq_some] at hclosed
              cases hclosed.2
              exact ⟨fun _ => ⟨_, rfl, rfl, rfl⟩, by simp⟩
          | cons byte bytes =>
              cases hrun
              simp
      | failed errno =>
          cases hrun
          simp
  | close | error | write =>
      obtain ⟨conn, -, rfl⟩ := Option.map_eq_some_iff.mp hrun
      simp

/-- The read callback handles errors, and no other. -/
theorem handleErrors_runCallback :
    0 < h.handleErrors ↔ callback = .read ∧ ∃ errno, read = .failed errno := by
  cases callback with
  | read =>
      cases read with
      | data bytes =>
          cases bytes with
          | nil =>
              obtain ⟨closed, -, rfl⟩ := Option.map_eq_some_iff.mp hrun
              simp
          | cons byte bytes =>
              cases hrun
              simp
      | failed errno =>
          cases hrun
          simp
  | close | error | write =>
      obtain ⟨conn, -, rfl⟩ := Option.map_eq_some_iff.mp hrun
      simp

end RunCallback

theorem runCallbacks_spec (input : EventInput) (hc : c.Established) {callbacks : List EventCallback}
    (hnodup : callbacks.Nodup) :
    ∃ h, c.runCallbacks input callbacks = some h ∧
      (.read ∈ callbacks ∧ input.read = .data [] → h.Closes) ∧
      (¬ (.read ∈ callbacks ∧ input.read = .data []) → h.closeCallBacks = []) ∧
      (0 < h.handleErrors ↔ .read ∈ callbacks ∧ ∃ errno, input.read = .failed errno) := by
  induction callbacks generalizing c with
  | nil => exact ⟨⟨c, [], 0⟩, rfl, by simp, by simp, by simp⟩
  | cons callback callbacks ih =>
      rw [List.nodup_cons] at hnodup
      obtain ⟨first, hfirst⟩ := Option.isSome_iff_exists.mp
        (isSome_runCallback input.read (input.write callback) fun _ : callback = .read => hc)
      obtain ⟨hclose, hnone⟩ := closeCallBacks_runCallback hfirst
      have hestablished : first.conn.Established := Established.runCallback hfirst hc
      obtain ⟨rest, hrest, hclose', hnone', herror'⟩ :=
        ih (hestablished.foldl_runBetween (input.between callback)) hnodup.2
      refine ⟨⟨rest.conn, first.closeCallBacks ++ rest.closeCallBacks,
        first.handleErrors + rest.handleErrors⟩, by simp [runCallbacks, hfirst, hrest], ?_, ?_, ?_⟩
      · rintro ⟨hread, heof⟩
        rcases List.mem_cons.mp hread with rfl | hread
        · -- No second read callback is due.
          have hrest := hnone' fun h => hnodup.1 h.1
          simpa [Handled.Closes, hrest] using hclose ⟨rfl, heof⟩
        · have hfirst := hnone fun h => hnodup.1 (h.1 ▸ hread)
          simpa [Handled.Closes, hfirst] using hclose' ⟨hread, heof⟩
      · intro hneither
        rw [List.mem_cons] at hneither
        dsimp only
        rw [hnone fun h => hneither ⟨Or.inl h.1.symm, h.2⟩,
          hnone' fun h => hneither ⟨Or.inr h.1, h.2⟩]
        rfl
      · dsimp only
        rw [Nat.add_pos_iff_pos_or_pos, handleErrors_runCallback hfirst, herror', List.mem_cons,
          or_and_right, eq_comm (a := callback)]

theorem read_mem_callbacks {revents : Revents} : .read ∈ revents.callbacks ↔ revents.Reads := by
  have hclose : .read ∉
      if revents.epollHup ∧ revents.epollIn = false then [EventCallback.close] else [] := by
    split <;> simp
  have herror : .read ∉ if revents.epollErr then [EventCallback.error] else [] := by
    split <;> simp
  have hwrite : .read ∉ if revents.epollOut then [EventCallback.write] else [] := by
    split <;> simp
  rw [Revents.callbacks, List.mem_append, List.mem_append, List.mem_append, or_iff_right hclose,
    or_iff_right herror, or_iff_left hwrite, Revents.Reads]
  split <;> simp_all

end TcpConnection

namespace TcpServer

variable {s t : TcpServer} {id j l : ℕ} {c : ServerConn}

/-! ## Closes of a run

A connection is closed by the read callbacks that read 0 bytes, one by one.
-/

/-- How often `close_call_back_` has been invoked for a connection. -/
def closes (s : TcpServer) (id : ℕ) : ℕ := (s.conns id).elim 0 fun c => c.life.count .closed

/-- `HandleEvent` of the connection starts on a hang-up. -/
def HangsUp (s : TcpServer) (id : ℕ) : ServerAction → Prop
  | .startEvent l =>
      match (s.loops l).phase with
      | .handling none ((k, revents) :: _) => k = id ∧ revents.HangUp
      | _ => False
  | _ => False

/-- The read callback of the connection reads 0 bytes. -/
def ReadsEof (s : TcpServer) (id : ℕ) : ServerAction → Prop
  | .handleEvent l read _ =>
      match (s.loops l).phase with
      | .handling (some (k, .read :: _)) _ => k = id ∧ read = .data []
      | _ => False
  | _ => False

instance (s : TcpServer) (id : ℕ) (action : ServerAction) : Decidable (s.HangsUp id action) := by
  unfold HangsUp
  split
  · split <;> infer_instance
  · infer_instance

instance (s : TcpServer) (id : ℕ) (action : ServerAction) : Decidable (s.ReadsEof id action) := by
  unfold ReadsEof
  split
  · split <;> infer_instance
  · infer_instance

theorem closes_of_conns (hc : s.conns id = some c) : s.closes id = c.life.count .closed := by
  rw [closes, hc]
  rfl

theorem closes_setLoop {loop : ServerLoop} : (s.setLoop l loop).closes j = s.closes j := rfl

theorem closes_setConns : (s.setConns id c).closes j =
    if j = id then c.life.count .closed else s.closes j := by
  by_cases hj : j = id
  · rw [if_pos hj, hj]
    exact closes_of_conns conns_setConns_self
  · rw [if_neg hj, closes, conns_setConns_of_ne hj, closes]

/-- An operation that leaves the record of closes as it was. -/
theorem closes_setConns_same (hc : s.conns id = some c) {d : ServerConn}
    (hlife : d.life.count .closed = c.life.count .closed) :
    (s.setConns id d).closes j = s.closes j := by
  rw [closes_setConns]
  split
  · rename_i hj
    rw [hj, closes_of_conns hc, hlife]
  · rfl

theorem closes_setTcpConnection (hc : s.conns id = some c) (conn : TcpConnection) :
    (s.setTcpConnection id c conn).closes j = s.closes j :=
  closes_setConns_same hc rfl

theorem closes_setConnectionEstablished :
    (s.setConnectionEstablished id).closes j = s.closes j := by
  unfold setConnectionEstablished
  split
  · rename_i c hc
    split
    · exact closes_setConns_same hc (by simp [ServerConn.record, ServerConn.setConn])
    · rfl
  · rfl

theorem closes_setConnectionDestroyed : (s.setConnectionDestroyed id).closes j = s.closes j := by
  unfold setConnectionDestroyed
  split
  · rename_i c hc
    split
    · exact closes_setConns_same hc (by simp [ServerConn.record, ServerConn.setConn])
    · rfl
  · rfl

theorem closes_removeConnectionInLoop : (s.removeConnectionInLoop id).closes j = s.closes j := by
  unfold removeConnectionInLoop
  split
  · rename_i c hc
    have hsame (connections : List (ConnName × ℕ)) (ret : ℕ) :
        ({ s with connections }.setConns id (c.record (.removed ret))).closes j = s.closes j :=
      closes_setConns_same (s := { s with connections }) hc (by simp [ServerConn.record])
    dsimp only
    split <;> exact hsame _ _
  · rfl

theorem closes_removeConnection : (s.removeConnection l id).closes j = s.closes j := by
  unfold removeConnection
  split
  · exact closes_removeConnectionInLoop
  · rfl

theorem closes_runRaw (task : ServerTask) (op : TcpConnection → TcpConnection) :
    (s.runRaw task op).closes j = s.closes j := by
  unfold runRaw
  split
  · rename_i c hc
    split
    · rfl
    · split <;> exact closes_setTcpConnection hc _
  · rfl

theorem closes_runTask (write : WriteResult) (task : ServerTask) :
    (s.runTask write task).closes j = s.closes j := by
  cases task with
  | established id => exact closes_setConnectionEstablished
  | removeInLoop id => exact closes_removeConnectionInLoop
  | destroyed id => exact closes_setConnectionDestroyed
  | callback id callback => rfl
  | sendInLoop id data | shutDownInLoop id => rw [runTask, closes_runRaw]

theorem Inv.closes_newConnection (hs : s.Inv) : s.newConnection.closes j = s.closes j := by
  have haccept : (s.accept s.getNextDispatcher.2 s.newConn).closes j = s.closes j := by
    rw [TcpServer.accept, closes_setConns]
    split
    · rename_i hj
      rw [closes, hj, hs.conns_next]
      rfl
    · rfl
  rw [hs.newConnection_eq]
  split
  · rw [closes_setConnectionEstablished, haccept]
  · exact haccept

theorem closes_handleClose (hc : s.conns id = some c) :
    (s.handleClose id).closes j = s.closes j + if j = id then 1 else 0 := by
  have hrecord : ∀ d : ServerConn, d.life = c.life →
      (s.setConns id (d.record .closed)).closes j = s.closes j + if j = id then 1 else 0 := by
    intro d hlife
    rw [closes_setConns]
    split
    · rename_i hj
      rw [hj, closes_of_conns hc]
      simp [ServerConn.record, hlife]
    · rfl
  simp only [handleClose, hc]
  split
  · rename_i conn hconn
    rw [closes_removeConnection]
    exact hrecord (c.setConn conn) rfl
  · exact hrecord c rfl

/-- The server does with a callback what the connection does with it. -/
theorem closes_runCallback (hc : s.conns id = some c) {read : Buffer.ReadResult}
    {write : KernelWrite} {callback : EventCallback} {h : Handled}
    (hrun : c.conn.runCallback read write callback = some h) :
    (s.runCallback id c read (write c.conn.outputBuf.payloadSize) callback).closes j =
      s.closes j + if j = id then h.closeCallBacks.length else 0 := by
  cases callback with
  | read =>
      simp only [runCallback]
      cases read with
      | data bytes =>
          cases bytes with
          | nil =>
              obtain ⟨conn, -, rfl⟩ := Option.map_eq_some_iff.mp hrun
              obtain ⟨d, hd⟩ : ∃ d,
                  (s.setTcpConnection id c (c.conn.handleRead (.data []))).conns id = some d :=
                ⟨_, conns_setConns_self⟩
              rw [if_pos rfl, closes_handleClose hd, closes_setTcpConnection hc]
              rfl
          | cons byte bytes =>
              cases hrun
              simp [closes_setTcpConnection hc]
      | failed errno =>
          cases hrun
          simp [closes_setTcpConnection hc]
  | close | error | write =>
      obtain ⟨conn, hconn, rfl⟩ := Option.map_eq_some_iff.mp hrun
      simp only [runCallback, hconn]
      simp [closes_setTcpConnection hc]

theorem Inv.closes_handleEvent {callback : EventCallback} {callbacks : List EventCallback}
    {ready : List (ℕ × Revents)} {read : Buffer.ReadResult}
    {write : WriteResult} {loop : ServerLoop}
    (hs : s.Inv) (hphase : (s.loops l).phase = .handling (some (id, callback :: callbacks)) ready)
    (hc : s.conns id = some c) (hwrite : write.Fits c.conn.outputBuf.payloadSize) :
    ((s.setLoop l loop).runCallback id c read write callback).closes j =
      s.closes j + if j = id ∧ callback = .read ∧ read = .data [] then 1 else 0 := by
  have hestablished : callback = .read → c.conn.Established := by
    rintro rfl
    obtain ⟨-, d, hd, -, -, hread⟩ := (hs.loops l).events (id, .read :: callbacks)
      (by simp [ServerLoop.events, hphase])
    rw [hc] at hd
    cases hd
    exact hs.established hc (hread (List.mem_cons_self ..))
  obtain ⟨h, hrun⟩ := Option.isSome_iff_exists.mp
    (TcpConnection.isSome_runCallback read write.kernel hestablished)
  have hcloses := closes_runCallback (s := s.setLoop l loop) (j := j) hc hrun
  rw [WriteResult.kernel_eq hwrite] at hcloses
  rw [hcloses, closes_setLoop]
  obtain ⟨hclose, hnone⟩ := TcpConnection.closeCallBacks_runCallback hrun
  by_cases heof : callback = .read ∧ read = .data []
  · obtain ⟨closed, hclosed, -⟩ := hclose heof
    simp [hclosed, heof]
  · simp [hnone heof, heof]

theorem closes_stepUser {action : ServerAction} (hc : s.conns id = some c)
    (hstep : s.stepUser id c action = some t) : t.closes j = s.closes j := by
  cases action with
  | acquire | drop =>
      simp only [stepUser] at hstep
      split at hstep <;> cases hstep
      exact closes_setConns_same hc rfl
  | callSend | callShutDown =>
      simp only [stepUser] at hstep
      split at hstep
      · split at hstep <;> cases hstep
        · exact closes_setConns_same hc rfl
        · rfl
      · cases hstep
  | queueCall task =>
      simp only [stepUser] at hstep
      split at hstep <;> cases hstep
      exact closes_setConns_same (s := { s with inFlight := s.inFlight.erase task }) hc rfl
  | send | shutDown =>
      simp only [stepUser] at hstep
      split at hstep <;> cases hstep
      exact closes_setTcpConnection hc _
  | _ => cases hstep

/-- A step of a loop that is not a callback. -/
theorem Inv.closes_stepLoop {action : ServerAction} (hs : s.Inv)
    (hstep : s.stepLoop l action = some t)
    (hevent : ∀ k read write, action ≠ .handleEvent k read write) :
    t.closes j = s.closes j := by
  cases action with
  | newConnection =>
      simp only [TcpServer.stepLoop] at hstep
      split at hstep
      · split at hstep <;> cases hstep
        exact hs.closes_newConnection
      · cases hstep
  | handleEvent k read write => exact absurd rfl (hevent k read write)
  | select =>
      simp only [TcpServer.stepLoop] at hstep
      split at hstep
      · split at hstep <;> cases hstep
        rfl
      · cases hstep
  | startEvent | finishEvent | swapPendingFuncs | finishPendingFuncs =>
      simp only [TcpServer.stepLoop] at hstep
      split at hstep <;> cases hstep
      rfl
  | runTask =>
      simp only [TcpServer.stepLoop] at hstep
      split at hstep
      · split at hstep <;> cases hstep
        rw [closes_runTask]
        rfl
      · cases hstep
  | _ => cases hstep

/-- A step closes a connection exactly if it is a callback that reads 0 bytes. -/
theorem Inv.closes_step {action : ServerAction} (hs : s.Inv) (hstep : s.step action = some t) :
    (s.ReadsEof id action → t.closes id = s.closes id + 1) ∧
      (¬ s.ReadsEof id action → t.closes id = s.closes id) := by
  unfold TcpServer.step at hstep
  rw [if_neg (by simp [hs.failed])] at hstep
  cases action with
  | newConnection => exact ⟨False.elim, fun _ => hs.closes_stepLoop hstep (by simp)⟩
  | handleEvent l read write =>
      simp only [Option.ite_none_right_eq_some, TcpServer.stepLoop] at hstep
      obtain ⟨-, hstep⟩ := hstep
      split at hstep
      · rename_i k callback callbacks ready hphase
        split at hstep
        · rename_i c hc
          split at hstep <;> cases hstep
          rw [hs.closes_handleEvent hphase hc ‹_›]
          have hiff : s.ReadsEof id (.handleEvent l read write) ↔
              id = k ∧ callback = .read ∧ read = .data [] := by
            cases callback <;> simp [ReadsEof, hphase, eq_comm]
          rw [hiff]
          constructor
          · intro h
            rw [if_pos h]
          · intro h
            rw [if_neg h, Nat.add_zero]
        · cases hstep
      · cases hstep
  | select | startEvent | finishEvent | swapPendingFuncs | runTask | finishPendingFuncs =>
      dsimp only at hstep
      split at hstep
      · exact ⟨False.elim, fun _ => hs.closes_stepLoop hstep (by simp)⟩
      · cases hstep
  | acquire | drop | callSend | callShutDown | send | shutDown | queueCall =>
      obtain ⟨c, hc, huser⟩ := Option.bind_eq_some_iff.mp hstep
      exact ⟨False.elim, fun _ => closes_stepUser hc huser⟩

section Run

variable (name : ConnName) (numThreads : ℕ) (hasWriteComplete : Bool) (actions : List ServerAction)

/-- The connection receives a hang-up in the run. -/
def HungUp (id : ℕ) : Prop :=
  (machine name numThreads hasWriteComplete).SomeStep (fun s => s.HangsUp id)
    (machine name numThreads hasWriteComplete).init actions

/-- The connection reads 0 bytes in the run. -/
def ReadEof (id : ℕ) : Prop :=
  (machine name numThreads hasWriteComplete).SomeStep (fun s => s.ReadsEof id)
    (machine name numThreads hasWriteComplete).init actions

instance (id : ℕ) : Decidable (HungUp name numThreads hasWriteComplete actions id) := by
  unfold HungUp; infer_instance

variable {name numThreads hasWriteComplete actions}

/-- A connection has been closed once if it has read 0 bytes, and otherwise not. -/
theorem count_closed_eq_one_iff
    (hrun : (machine name numThreads hasWriteComplete).exec
      (machine name numThreads hasWriteComplete).init actions = some s)
    (hc : s.conns id = some c) :
    c.life.count .closed = 1 ↔ ReadEof name numThreads hasWriteComplete actions id := by
  have hnew := inv_new name numThreads hasWriteComplete
  have hinv : s.Inv :=
    Machine.exec_invariant (I := Inv) (fun _ _ _ hs hstep => Inv.step hs hstep) hnew hrun
  have hle : c.life.count .closed ≤ 1 := by
    obtain ⟨stage, hconn⟩ := hinv.conn hc
    rw [hconn.life]
    cases stage <;> decide
  have hcloses : 0 < s.closes id ↔ ReadEof name numThreads hasWriteComplete actions id :=
    (Machine.lt_iff_someStep (I := Inv) (E := fun s => s.ReadsEof id) (f := fun s => s.closes id)
      (fun _ _ _ hs hstep => Inv.step hs hstep)
      (fun _ _ _ hs hstep => (Inv.closes_step hs hstep).1)
      (fun _ _ _ hs hstep => (Inv.closes_step hs hstep).2) hnew hrun).2
  rw [← hcloses, closes_of_conns hc]
  omega

end Run

/-! ## Hang-ups and errors that are handled -/

/-- Exactly when hang-ups and errors reach `HandleClose` and `HandleError`: for one event
set on an established connection, and for a connection over a whole run of the server. -/
theorem handlers_reached_iff (name : ConnName) (numThreads : ℕ) (hasWriteComplete : Bool)
    (actions : List ServerAction) :
    (∀ (c : TcpConnection) (revents : Revents) (input : EventInput), c.Established →
      ∃ h, c.handleEvent revents input = some h ∧
        ((revents.HangUp → h.Closes) ↔
          (revents.HangUp → (revents.epollPri = true ∨ revents.epollRdHup = true) ∧
            input.read = .data [])) ∧
        ((revents.epollErr = true → 0 < h.handleErrors) ↔
          (revents.epollErr = true → revents.Reads ∧ ∃ errno, input.read = .failed errno))) ∧
    ∀ s id c, (machine name numThreads hasWriteComplete).exec
        (machine name numThreads hasWriteComplete).init actions = some s → s.conns id = some c →
      ((HungUp name numThreads hasWriteComplete actions id ∨
            ReadEof name numThreads hasWriteComplete actions id → c.life.count .closed = 1) ↔
        (HungUp name numThreads hasWriteComplete actions id →
          ReadEof name numThreads hasWriteComplete actions id)) := by
  constructor
  · intro c revents input hc
    obtain ⟨h, hrun, hclose, hnone, herror⟩ :=
      TcpConnection.runCallbacks_spec input hc (nodup_callbacks revents)
    rw [TcpConnection.read_mem_callbacks] at hclose hnone herror
    refine ⟨h, hrun, ?_, by rw [herror]⟩
    apply forall_congr'
    intro hup
    have hreads : revents.Reads ↔ revents.epollPri = true ∨ revents.epollRdHup = true := by
      simp [Revents.Reads, hup.2]
    rw [← hreads]
    constructor
    · intro hcloses
      by_contra hneither
      obtain ⟨closed, hclosed, -⟩ := hcloses
      rw [hnone hneither] at hclosed
      cases hclosed
    · exact hclose
  · intro s id c hrun hc
    rw [count_closed_eq_one_iff hrun hc]
    constructor
    · exact fun h hup => h (Or.inl hup)
    · rintro h (hup | heof)
      · exact h hup
      · exact heof

/-- The peer of a connection of the base loop resets it, and `epoll_wait` finds the socket
closed by the kernel before the flags say that its two directions are shut down, so
that it reports `EPOLLHUP` and `EPOLLERR` without `EPOLLIN`. -/
def peerResets : List ServerAction :=
  [.select 0 [], .newConnection, .swapPendingFuncs 0, .finishPendingFuncs 0,
    .select 0 [(1, ⟨false, false, false, false, true, true⟩)], .startEvent 0,
    .handleEvent 0 (.failed 104) (.failed 32), .handleEvent 0 (.failed 104) (.failed 32),
    .finishEvent 0]

/-- A connection, the events and the answers of the kernel in the same window. -/
def resetConn : TcpConnection :=
  { TcpConnection.new 64 false false with state := .connected, careRead := true }

def resetEvents : Revents := ⟨false, false, false, false, true, true⟩

def resetInput : EventInput := ⟨.failed 104, fun _ => (WriteResult.failed 32).kernel, fun _ => []⟩

/-- On a hang-up in that window neither handler is called, nothing is queued for the base
loop, and the connection keeps its interest. -/
theorem hangUp_not_handled :
    ((resetConn.handleEvent resetEvents resetInput).map
      fun h : Handled => (h.conn.careRead, h.closeCallBacks.length, h.handleErrors)) =
        some (true, 0, 0) ∧
    HungUp [] 0 false peerResets 1 ∧
    ((machine [] 0 false).exec (machine [] 0 false).init peerResets).map
      (fun s => (s.closes 1, (s.loops 0).pending.length)) = some (0, 0) ∧
    ¬ ∀ (c : TcpConnection) (revents : Revents) (input : EventInput), c.Established →
      revents.HangUp → ∃ h, c.handleEvent revents input = some h ∧ h.Closes := by
  refine ⟨by decide +kernel, by decide +kernel, by decide +kernel, ?_⟩
  intro hall
  obtain ⟨h, hrun, closed, hclosed, -⟩ :=
    hall resetConn resetEvents resetInput (Or.inl rfl) ⟨rfl, rfl⟩
  have hnone : ((resetConn.handleEvent resetEvents resetInput).map
      fun h : Handled => h.closeCallBacks.length) = some 0 := by decide +kernel
  rw [hrun, Option.map_some, hclosed] at hnone
  cases hnone

end TcpServer

end YxAlpha
