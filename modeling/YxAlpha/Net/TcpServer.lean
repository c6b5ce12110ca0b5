import Mathlib.Data.List.Basic
import Mathlib.Logic.Function.Basic
import YxAlpha.Library.Machine
import YxAlpha.Net.TcpConnection

/-!
# The server and its loops

`TcpServer` is `net/tcpserver.h` together with the dispatchers it runs on: loop
`0` is the base loop, loops `1` to `numThreads` are the I/O loops.  Connections are
numbered by `conn_id_`.  Every loop goes round

`selecting` → `handling` (the epoll batch) → `calling` (the swapped-out tasks)

and other threads hold references, call `Send` and `ShutDown`, and drop them.
`is_same_thread` takes nobody for the thread of a loop but that thread, which runs
at once what the others queue.

The strong references to a connection are what the C++ program counts: the map
entry, the tasks that have bound a `shared_ptr` (a task that has run holds its
reference until the batch is destroyed), and the copies of users.  `SendInLoop`
and `ShutDownInLoop` are bound to a raw `this` and hold none; one that runs on a
connection that is destroyed or no longer referenced is recorded in `late`, and
what it does to freed memory is not modelled.

`life` and `history` record what has happened to a connection; `failed` is set
by an assertion that fails, and ends the run.
-/

namespace YxAlpha

abbrev ConnName := List Char

inductive ServerTask
  | established (id : ℕ)
  | removeInLoop (id : ℕ)
  | destroyed (id : ℕ)
  | callback (id : ℕ) (callback : Callback)
  | sendInLoop (id : ℕ) (data : Bytes)
  | shutDownInLoop (id : ℕ)
  deriving DecidableEq, Repr

namespace ServerTask

/-- The connection the task is about. -/
def conn : ServerTask → ℕ
  | established id | removeInLoop id | destroyed id | callback id _ | sendInLoop id _
  | shutDownInLoop id => id

/-- The task is bound to a raw `this`. -/
def raw : ServerTask → Bool
  | sendInLoop _ _ | shutDownInLoop _ => true
  | _ => false

/-- The task holds a strong reference to the connection. -/
def Holds (task : ServerTask) (id : ℕ) : Prop := task.raw = false ∧ task.conn = id

instance (task : ServerTask) (id : ℕ) : Decidable (task.Holds id) := by
  unfold Holds; infer_instance

end ServerTask

/-! ## Events -/

/-- The callbacks of an `EventHandler`. -/
inductive EventCallback
  | close | error | read | write
  deriving DecidableEq, Repr

/-- The events `epoll_wait` returns for one fd. -/
structure Revents where
  epollIn : Bool
  epollPri : Bool
  epollRdHup : Bool
  epollOut : Bool
  epollErr : Bool
  epollHup : Bool
  deriving DecidableEq, Repr

namespace Revents

/-- The callbacks `HandleEvent` calls, in its order. -/
def callbacks (revents : Revents) : List EventCallback :=
  (if revents.epollHup ∧ revents.epollIn = false then [.close] else []) ++
    ((if revents.epollErr then [.error] else []) ++
      ((if revents.epollIn ∨ revents.epollPri ∨ revents.epollRdHup then [.read] else []) ++
        if revents.epollOut then [.write] else []))

/-- epoll reports what was asked for, and errors and hang-ups in any case. -/
def Reportable (revents : Revents) (c : TcpConnection) : Prop :=
  (revents.epollIn = true ∨ revents.epollPri = true → c.careRead = true) ∧
    revents.epollRdHup = false ∧ (revents.epollOut = true → c.careWrite = true)

instance (revents : Revents) (c : TcpConnection) : Decidable (revents.Reportable c) := by
  unfold Reportable; infer_instance

end Revents

/-! ## Loops -/

inductive LoopPhase
  | selecting
  /-- The selector iterates over the epoll batch; `current` is inside its
  `HandleEvent`, with the callbacks that are still to be called. -/
  | handling (current : Option (ℕ × List EventCallback)) (ready : List (ℕ × Revents))
  /-- `ExecutePendingFuncs` iterates over the batch it has swapped out. -/
  | calling (batch spent : List ServerTask)

structure ServerLoop where
  pending : List ServerTask
  phase : LoopPhase

namespace ServerLoop

def new : ServerLoop := ⟨[], .selecting⟩

/-- The tasks that have not run, in the order they will. -/
def waiting (loop : ServerLoop) : List ServerTask :=
  match loop.phase with
  | .calling batch _ => batch ++ loop.pending
  | _ => loop.pending

/-- The tasks that exist, with those of the batch that have run. -/
def tasks (loop : ServerLoop) : List ServerTask :=
  match loop.phase with
  | .calling batch spent => spent ++ batch ++ loop.pending
  | _ => loop.pending

/-- The handlers of the epoll batch, with the callbacks still to be called. -/
def events (loop : ServerLoop) : List (ℕ × List EventCallback) :=
  match loop.phase with
  | .handling current ready =>
      current.toList ++ ready.map fun event => (event.1, event.2.callbacks)
  | _ => []

end ServerLoop

/-! ## Connections of a server -/

inductive LifeEvent
  /-- `set_connection_established` has run, with what `is_connected()` was in the
  connection callback. -/
  | established (isConnected : Bool)
  /-- `HandleClose` has been called. -/
  | closed
  /-- `RemoveConnectionInLoop` has run, with what `erase` returned. -/
  | removed (ret : ℕ)
  /-- `set_connection_destroyed` has run, with what `is_connected()` was in the
  connection callback. -/
  | destroyed (isConnected : Bool)
  deriving DecidableEq, Repr

structure ServerConn where
  name : ConnName
  io : ℕ
  conn : TcpConnection
  /-- The fd is in the selector of the loop. -/
  registered : Bool
  userRefs : ℕ
  history : List ConnState
  life : List LifeEvent

namespace ServerConn

def setConn (c : ServerConn) (conn : TcpConnection) : ServerConn :=
  { c with
    conn
    history := if conn.state = c.conn.state then c.history else c.history ++ [conn.state] }

def record (c : ServerConn) (event : LifeEvent) : ServerConn := { c with life := c.life ++ [event] }

/-- `set_connection_destroyed` has run. -/
def Destroyed (c : ServerConn) : Prop := ∃ isConnected, LifeEvent.destroyed isConnected ∈ c.life

/-- `RemoveConnectionInLoop` has run, and queued `set_connection_destroyed`. -/
def Removed (c : ServerConn) : Prop := ∃ ret, LifeEvent.removed ret ∈ c.life

instance (c : ServerConn) : Decidable c.Destroyed :=
  decidable_of_iff (c.life.any fun event => event matches .destroyed _) <| by
    rw [List.any_eq_true]
    constructor
    · rintro ⟨event, hevent, h⟩
      cases event with
      | destroyed isConnected => exact ⟨isConnected, hevent⟩
      | _ => cases h
    · rintro ⟨isConnected, h⟩
      exact ⟨_, h, rfl⟩

instance (c : ServerConn) : Decidable c.Removed :=
  decidable_of_iff (c.life.any fun event => event matches .removed _) <| by
    rw [List.any_eq_true]
    constructor
    · rintro ⟨event, hevent, h⟩
      cases event with
      | removed ret => exact ⟨ret, hevent⟩
      | _ => cases h
    · rintro ⟨ret, h⟩
      exact ⟨_, h, rfl⟩

end ServerConn

/-! ## The server -/

structure TcpServer where
  name : ConnName
  numThreads : ℕ
  hasWriteCompleteCallback : Bool
  connId : ℕ
  /-- `next_` of the dispatcher pool. -/
  next : ℕ
  connections : List (ConnName × ℕ)
  conns : ℕ → Option ServerConn
  loops : ℕ → ServerLoop
  /-- Calls of other threads between their check and their `push_back`. -/
  inFlight : List ServerTask
  failed : Bool
  late : List ServerTask

namespace TcpServer

def new (name : ConnName) (numThreads : ℕ) (hasWriteComplete : Bool) : TcpServer where
  name := name
  numThreads := numThreads
  hasWriteCompleteCallback := hasWriteComplete
  connId := 0
  next := 0
  connections := []
  conns := fun _ => none
  loops := fun _ => .new
  inFlight := []
  failed := false
  late := []

variable (s : TcpServer)

/-- The number of strong references to a connection. -/
def strongRefs (id : ℕ) : ℕ :=
  s.connections.countP (fun entry => entry.2 = id) +
    ((List.range (s.numThreads + 1)).map fun l =>
      (s.loops l).tasks.countP fun task => task.Holds id).sum +
    (s.conns id).elim 0 ServerConn.userRefs +
    -- A thread keeps its reference while it is inside a call.
    s.inFlight.countP fun task => task.conn = id

def fail : TcpServer := { s with failed := true }

def setConns (id : ℕ) (c : ServerConn) : TcpServer :=
  { s with conns := Function.update s.conns id (some c) }

def setLoop (l : ℕ) (loop : ServerLoop) : TcpServer :=
  { s with loops := Function.update s.loops l loop }

def queueInLoop (l : ℕ) (tasks : List ServerTask) : TcpServer :=
  s.setLoop l { s.loops l with pending := (s.loops l).pending ++ tasks }

/-- Stores what an operation has made of a connection and queues the user
callbacks it asked for. -/
def setTcpConnection (id : ℕ) (c : ServerConn) (conn : TcpConnection) : TcpServer :=
  (s.setConns id (c.setConn { conn with queued := [] })).queueInLoop c.io
    (conn.queued.map (.callback id))

/-! ### Tasks -/

def setConnectionEstablished (id : ℕ) : TcpServer :=
  match s.conns id with
  | some c =>
      match c.conn.setConnectionEstablished with
      | some conn => s.setConns id ((c.setConn conn).record (.established conn.isConnected))
      | none => s.fail
  | none => s.fail

def setConnectionDestroyed (id : ℕ) : TcpServer :=
  match s.conns id with
  | some c =>
      match c.conn.setConnectionDestroyed with
      | some conn =>
          s.setConns id
            { (c.setConn conn).record (.destroyed conn.isConnected) with registered := false }
      | none => s.fail
  | none => s.fail

def removeConnectionInLoop (id : ℕ) : TcpServer :=
  match s.conns id with
  | some c =>
      let ret := s.connections.countP fun entry => entry.1 = c.name
      let erased := { s with connections := s.connections.filter fun entry => entry.1 ≠ c.name }
      let recorded := erased.setConns id (c.record (.removed ret))
      if ret = 1 then recorded.queueInLoop c.io [.destroyed id] else recorded.fail
  | none => s.fail

/-- `RemoveConnection`, called on the loop `l`. -/
def removeConnection (l id : ℕ) : TcpServer :=
  if l = 0 then s.removeConnectionInLoop id else s.queueInLoop 0 [.removeInLoop id]

/-- `SendInLoop` or `ShutDownInLoop`, called through a raw `this`. -/
def runRaw (task : ServerTask) (op : TcpConnection → TcpConnection) : TcpServer :=
  match s.conns task.conn with
  | some c =>
      if s.strongRefs task.conn = 0 then { s with late := s.late ++ [task] }
      else
        let ran := s.setTcpConnection task.conn c (op c.conn)
        if c.Destroyed then { ran with late := s.late ++ [task] } else ran
  | none => { s with late := s.late ++ [task] }

def runTask (write : WriteResult) (task : ServerTask) : TcpServer :=
  match task with
  | .established id => s.setConnectionEstablished id
  | .removeInLoop id => s.removeConnectionInLoop id
  | .destroyed id => s.setConnectionDestroyed id
  | .callback _ _ => s
  | .sendInLoop _ data => s.runRaw task fun conn => conn.sendInLoop write data
  | .shutDownInLoop _ => s.runRaw task TcpConnection.shutDownInLoop

/-- The result fits the `write` the task may make. -/
def TaskFits (write : WriteResult) : ServerTask → Prop
  | .sendInLoop _ data => write.Fits data.length
  | _ => True

instance (write : WriteResult) : ∀ task, Decidable (TaskFits write task)
  | .sendInLoop _ data => inferInstanceAs (Decidable (write.Fits data.length))
  | .established _ | .removeInLoop _ | .destroyed _ | .callback _ _ | .shutDownInLoop _ =>
      isTrue trivial

/-! ### Events -/

/-- `get_next_dispatcher`, with the next value of `next_`. -/
def getNextDispatcher : ℕ × ℕ :=
  if s.numThreads = 0 then (0, s.next) else (s.next + 1, (s.next + 1) % s.numThreads)

/-- `NewConnection`, called on the base loop. -/
def newConnection : TcpServer :=
  let id := s.connId + 1
  let name := s.name ++ Nat.toDigits 10 id
  let (io, next) := s.getNextDispatcher
  let accepted :=
    { s with
      connId := id
      next
      connections :=
        if s.connections.any fun entry => entry.1 = name then s.connections
        else s.connections ++ [(name, id)] }.setConns id
      { name, io
        conn := .new (64 * 1024 * 1024) s.hasWriteCompleteCallback false
        registered := true
        userRefs := 0
        history := [.connecting]
        life := [] }
  if io = 0 then accepted.setConnectionEstablished id
  else accepted.queueInLoop io [.established id]

def handleClose (id : ℕ) : TcpServer :=
  match s.conns id with
  | some c =>
      match c.conn.handleClose with
      | some conn => (s.setConns id ((c.setConn conn).record .closed)).removeConnection c.io id
      | none => (s.setConns id (c.record .closed)).fail
  | none => s.fail

/-- A callback of the handler of a connection: close, error and write events all
go to `HandleWrite`. -/
def runCallback (id : ℕ) (c : ServerConn) (read : Buffer.ReadResult) (write : WriteResult) :
    EventCallback → TcpServer
  | .read =>
      let s := s.setTcpConnection id c (c.conn.handleRead read)
      if read = .data [] then s.handleClose id else s
  | .close | .error | .write =>
      match c.conn.handleWrite write with
      | some conn => s.setTcpConnection id c conn
      | none => s.fail

/-- `epoll_wait` on the loop `l` may report the event. -/
def reports (l : ℕ) (event : ℕ × Revents) : Bool :=
  match s.conns event.1 with
  | some c => c.io = l ∧ c.registered ∧ event.2.Reportable c.conn
  | none => false

end TcpServer

/-! ## Steps -/

inductive ServerAction
  | newConnection
  | select (l : ℕ) (ready : List (ℕ × Revents))
  | startEvent (l : ℕ)
  | handleEvent (l : ℕ) (read : Buffer.ReadResult) (write : WriteResult)
  | finishEvent (l : ℕ)
  | swapPendingFuncs (l : ℕ)
  | runTask (l : ℕ) (write : WriteResult)
  | finishPendingFuncs (l : ℕ)
  | acquire (id : ℕ)
  | drop (id : ℕ)
  /-- `Send` on another thread, up to its `push_back`. -/
  | callSend (id : ℕ) (data : Bytes)
  | callShutDown (id : ℕ)
  | queueCall (task : ServerTask)
  /-- `Send` on the thread of the loop. -/
  | send (id : ℕ) (write : WriteResult) (data : Bytes)
  | shutDown (id : ℕ)
  deriving Repr

namespace TcpServer

/-- A step of the loop `l`. -/
def stepLoop (s : TcpServer) (l : ℕ) : ServerAction → Option TcpServer
  | .newConnection =>
      match (s.loops l).phase with
      | .handling _ _ => if s.connId + 1 < 2 ^ 31 then some s.newConnection else none
      | _ => none
  | .select _ ready =>
      match (s.loops l).phase with
      | .selecting =>
          if (ready.map Prod.fst).Nodup ∧ ready.all (s.reports l) then
            some (s.setLoop l { s.loops l with phase := .handling none ready })
          else none
      | _ => none
  | .startEvent _ =>
      match (s.loops l).phase with
      | .handling none ((id, revents) :: ready) =>
          some (s.setLoop l
            { s.loops l with phase := .handling (some (id, revents.callbacks)) ready })
      | _ => none
  | .handleEvent _ read write =>
      match (s.loops l).phase with
      | .handling (some (id, callback :: callbacks)) ready =>
          match s.conns id with
          | some c =>
              if write.Fits c.conn.outputBuf.payloadSize then
                some ((s.setLoop l
                  { s.loops l with phase := .handling (some (id, callbacks)) ready }).runCallback
                    id c read write callback)
              else none
          | none => none
      | _ => none
  | .finishEvent _ =>
      match (s.loops l).phase with
      | .handling (some (_, [])) ready =>
          some (s.setLoop l { s.loops l with phase := .handling none ready })
      | _ => none
  | .swapPendingFuncs _ =>
      match (s.loops l).phase with
      | .handling none [] =>
          some (s.setLoop l { pending := [], phase := .calling (s.loops l).pending [] })
      | _ => none
  | .runTask _ write =>
      match (s.loops l).phase with
      | .calling (task :: batch) spent =>
          if TaskFits write task then
            some ((s.setLoop l
              { s.loops l with phase := .calling batch (spent ++ [task]) }).runTask write task)
          else none
      | _ => none
  | .finishPendingFuncs _ =>
      match (s.loops l).phase with
      | .calling [] _ => some (s.setLoop l { s.loops l with phase := .selecting })
      | _ => none
  | _ => none

/-- A step of a user who holds or gets references to the connection `id`. -/
def stepUser (s : TcpServer) (id : ℕ) (c : ServerConn) : ServerAction → Option TcpServer
  | .acquire _ =>
      if 0 < s.strongRefs id then some (s.setConns id { c with userRefs := c.userRefs + 1 })
      else none
  | .drop _ =>
      if 0 < c.userRefs then some (s.setConns id { c with userRefs := c.userRefs - 1 }) else none
  | .callSend _ data =>
      if 0 < c.userRefs then
        if c.conn.state = .connected then
          some
            { s.setConns id { c with userRefs := c.userRefs - 1 } with
              inFlight := s.inFlight ++ [.sendInLoop id data] }
        else some s
      else none
  | .callShutDown _ =>
      if 0 < c.userRefs then
        if c.conn.state = .connected then
          some
            { s.setConns id
                { c.setConn { c.conn with state := .disconnecting } with
                  userRefs := c.userRefs - 1 } with
              inFlight := s.inFlight ++ [.shutDownInLoop id] }
        else some s
      else none
  | .queueCall task =>
      if task ∈ s.inFlight then
        some
          (({ s with inFlight := s.inFlight.erase task }.setConns id
            { c with userRefs := c.userRefs + 1 }).queueInLoop c.io [task])
      else none
  | .send _ write data =>
      if 0 < s.strongRefs id ∧ write.Fits data.length then
        some (s.setTcpConnection id c (c.conn.send write data))
      else none
  | .shutDown _ =>
      if 0 < s.strongRefs id then some (s.setTcpConnection id c c.conn.shutDown) else none
  | _ => none

/-- The steps of the program; after a failed assertion there are none. -/
def step (s : TcpServer) (action : ServerAction) : Option TcpServer :=
  if s.failed then none
  else
    match action with
    | .newConnection => s.stepLoop 0 action
    | .select l _ | .startEvent l | .handleEvent l _ _ | .finishEvent l | .swapPendingFuncs l
    | .runTask l _ | .finishPendingFuncs l =>
        if l ≤ s.numThreads then s.stepLoop l action else none
    | .acquire id | .drop id | .callSend id _ | .callShutDown id | .send id _ _ | .shutDown id =>
        (s.conns id).bind fun c => s.stepUser id c action
    | .queueCall task => (s.conns task.conn).bind fun c => s.stepUser task.conn c action

def machine (name : ConnName) (numThreads : ℕ) (hasWriteComplete : Bool) :
    Machine TcpServer ServerAction where
  init := new name numThreads hasWriteComplete
  step := step

end TcpServer

end YxAlpha
