import YxAlpha.Net.Lifecycle

/-!
# Tasks bound to a raw this

`SendInLoop` and `ShutDownInLoop` are queued with a raw `this`; only
`set_connection_established`, `RemoveConnectionInLoop` and
`set_connection_destroyed` are queued with a reference.  `state_` stays
`CONNECTED` until the connection is destroyed, so a call from another thread can
still queue a task behind the one that destroys the connection.

A loop runs its tasks in the order in which they were queued, so that is also the
only way: `Ordered` says that no raw task waits behind the task that destroys its
connection, and only a `push_back` that comes after `RemoveConnectionInLoop` can
break it (`not_late`).
-/

namespace YxAlpha

namespace TcpServer

/-- No task has run on a connection that is destroyed or not referenced. -/
def NotLate (s : TcpServer) : Prop := s.late = []

instance : DecidablePred NotLate := fun s => inferInstanceAs (Decidable (s.late = []))

/-- A call of another thread queues its task before `RemoveConnectionInLoop` has
queued `set_connection_destroyed` for the connection. -/
def QueuedInTime (s : TcpServer) : ServerAction → Prop
  | .queueCall task => ∀ c, s.conns task.conn = some c → ¬ c.Removed
  | _ => True

instance (s : TcpServer) : ∀ action, Decidable (s.QueuedInTime action)
  | .queueCall task => Machine.decidableForallSome (s.conns task.conn)
  | .newConnection | .select _ _ | .startEvent _ | .handleEvent _ _ _ | .finishEvent _
  | .swapPendingFuncs _ | .runTask _ _ | .finishPendingFuncs _ | .acquire _ | .drop _
  | .callSend _ _ | .callShutDown _ | .send _ _ _ | .shutDown _ => isTrue trivial

/-- A raw task behind another does not find its connection destroyed by it. -/
def InOrder (first second : ServerTask) : Prop :=
  second.raw = true → first ≠ .destroyed second.conn

structure Ordered (s : TcpServer) : Prop where
  late : s.late = []
  inOrder : ∀ l, (s.loops l).waiting.Pairwise InOrder
  /-- A raw task waits in the loop of a connection that is not destroyed. -/
  waiting : ∀ l, ∀ task ∈ (s.loops l).waiting, task.raw = true →
    ∃ c, s.conns task.conn = some c ∧ c.io = l ∧ ¬ c.Destroyed

/-- From `s` to `t` tasks with references are queued, and connections stay where
they are. -/
structure Extends (s t : TcpServer) : Prop where
  late : t.late = s.late
  waiting : ∀ l, ∃ tasks, (t.loops l).waiting = (s.loops l).waiting ++ tasks ∧
    ∀ task ∈ tasks, task.raw = false
  conns : ∀ id c, s.conns id = some c →
    ∃ d, t.conns id = some d ∧ d.io = c.io ∧ (d.Destroyed → c.Destroyed)

variable {s t : TcpServer} {id l : ℕ} {c : ServerConn}

/-- Recording an event other than the last does not destroy the connection. -/
theorem destroyed_of_record {event : LifeEvent} (hevent : ∀ b, event ≠ .destroyed b)
    (h : (c.record event).Destroyed) : c.Destroyed := by
  obtain ⟨b, hb⟩ := h
  rcases List.mem_append.mp hb with hold | hnew
  · exact ⟨b, hold⟩
  · exact absurd (List.mem_singleton.mp hnew).symm (hevent b)

namespace Extends

theorem trans {u : TcpServer} (hst : Extends s t) (htu : Extends t u) : Extends s u where
  late := htu.late.trans hst.late
  waiting l := by
    obtain ⟨first, hfirst, hfirstRaw⟩ := hst.waiting l
    obtain ⟨second, hsecond, hsecondRaw⟩ := htu.waiting l
    refine ⟨first ++ second, by rw [hsecond, hfirst, List.append_assoc], ?_⟩
    intro task htask
    exact (List.mem_append.mp htask).elim (hfirstRaw task) (hsecondRaw task)
  conns id c hc := by
    obtain ⟨d, hd, hdio, hdgone⟩ := hst.conns id c hc
    obtain ⟨e, he, heio, hegone⟩ := htu.conns id d hd
    exact ⟨e, he, heio.trans hdio, fun h => hdgone (hegone h)⟩

theorem setConns {d : ServerConn} (hc : s.conns id = some c) (hio : d.io = c.io)
    (hgone : d.Destroyed → c.Destroyed) : Extends s (s.setConns id d) where
  late := rfl
  waiting _ := ⟨[], by simp [TcpServer.setConns]⟩
  conns j e he := by
    by_cases hj : j = id
    · subst hj
      rw [hc] at he
      cases he
      exact ⟨d, conns_setConns_self, hio, hgone⟩
    · exact ⟨e, by rw [conns_setConns_of_ne hj, he], rfl, fun h => h⟩

theorem queueInLoop (tasks : List ServerTask) (htasks : ∀ task ∈ tasks, task.raw = false) :
    Extends s (s.queueInLoop l tasks) where
  late := rfl
  waiting k := by
    refine ⟨if k = l then tasks else [], waiting_queueInLoop tasks k, ?_⟩
    intro task htask
    split at htask
    · exact htasks task htask
    · cases htask
  conns _ c hc := ⟨c, hc, rfl, fun h => h⟩

theorem setTcpConnection {conn : TcpConnection} (hc : s.conns id = some c) :
    Extends s (s.setTcpConnection id c conn) := by
  have htasks : ∀ task ∈ conn.queued.map (ServerTask.callback id), task.raw = false := by
    simp [ServerTask.raw]
  exact (setConns (d := c.setConn { conn with queued := [] }) hc rfl fun h => h).trans
    (queueInLoop _ htasks)

theorem fail : Extends s s.fail :=
  ⟨rfl, fun _ => ⟨[], by simp [TcpServer.fail]⟩, fun _ c hc => ⟨c, hc, rfl, fun h => h⟩⟩

theorem setInFlight (inFlight : List ServerTask) : Extends s { s with inFlight } :=
  ⟨rfl, fun _ => ⟨[], by simp⟩, fun _ c hc => ⟨c, hc, rfl, fun h => h⟩⟩

theorem setConnections (connections : List (ConnName × ℕ)) : Extends s { s with connections } :=
  ⟨rfl, fun _ => ⟨[], by simp⟩, fun _ c hc => ⟨c, hc, rfl, fun h => h⟩⟩

/-- A record of anything but the destruction. -/
theorem record {d : ServerConn} (event : LifeEvent) (hc : s.conns id = some c)
    (hio : d.io = c.io) (hlife : d.life = c.life) (hevent : ∀ b, event ≠ .destroyed b) :
    Extends s (s.setConns id (d.record event)) := by
  refine setConns hc hio ?_
  intro h
  obtain ⟨b, hb⟩ := destroyed_of_record hevent h
  exact ⟨b, hlife ▸ hb⟩

theorem setConnectionEstablished : Extends s (s.setConnectionEstablished id) := by
  unfold TcpServer.setConnectionEstablished
  split
  · rename_i c hc
    split
    · exact record _ hc rfl rfl (by simp)
    · exact fail
  · exact fail

theorem removeConnectionInLoop : Extends s (s.removeConnectionInLoop id) := by
  unfold TcpServer.removeConnectionInLoop
  split
  · rename_i c hc
    have hrecorded := (setConnections (s.connections.filter fun entry => entry.1 ≠ c.name)).trans
      (record (.removed (s.connections.countP fun entry => entry.1 = c.name)) hc rfl rfl
        (by simp))
    dsimp only
    split
    · exact hrecorded.trans (queueInLoop _ (by simp [ServerTask.raw]))
    · exact hrecorded.trans fail
  · exact fail

theorem handleClose : Extends s (s.handleClose id) := by
  unfold TcpServer.handleClose
  split
  · rename_i c hc
    split
    · rename_i conn hconn
      apply (record (d := c.setConn conn) .closed hc rfl rfl (by simp)).trans
      unfold removeConnection
      split
      · exact removeConnectionInLoop
      · exact queueInLoop [.removeInLoop id] (by simp [ServerTask.raw])
    · exact (record .closed hc rfl rfl (by simp)).trans fail
  · exact fail

theorem runCallback {callback : EventCallback} {read : Buffer.ReadResult} {write : WriteResult}
    (hc : s.conns id = some c) : Extends s (s.runCallback id c read write callback) := by
  cases callback with
  | read =>
      simp only [TcpServer.runCallback]
      split
      · exact (setTcpConnection hc).trans handleClose
      · exact setTcpConnection hc
  | close | error | write =>
      simp only [TcpServer.runCallback]
      split
      · exact setTcpConnection hc
      · exact fail

theorem accept (hs : s.Inv) (next : ℕ) (c : ServerConn) : Extends s (s.accept next c) where
  late := rfl
  waiting _ := ⟨[], by simp [TcpServer.accept, TcpServer.setConns]⟩
  conns j d hd := by
    have hj : j ≠ s.connId + 1 := by
      rintro rfl
      rw [hs.conns_next] at hd
      cases hd
    exact ⟨d, by rw [(Inv.only_accept next c).conns j hj, hd], rfl, fun h => h⟩

theorem newConnection (hs : s.Inv) : Extends s s.newConnection := by
  rw [hs.newConnection_eq]
  split
  · exact (accept hs _ _).trans setConnectionEstablished
  · exact (accept hs _ _).trans (queueInLoop _ (by simp [ServerTask.raw]))

end Extends

theorem Ordered.extends (hs : s.Ordered) (hst : Extends s t) : t.Ordered where
  late := hst.late.trans hs.late
  inOrder l := by
    obtain ⟨tasks, htasks, hraw⟩ := hst.waiting l
    rw [htasks, List.pairwise_append]
    refine ⟨hs.inOrder l, ?_, ?_⟩
    · exact List.pairwise_of_forall_mem_list fun first _ second hsecond h => by
        simp [hraw second hsecond] at h
    · intro first _ second hsecond h
      simp [hraw second hsecond] at h
  waiting l task htask hraw := by
    obtain ⟨tasks, htasks, hnone⟩ := hst.waiting l
    rw [htasks] at htask
    rcases List.mem_append.mp htask with hold | hnew
    · obtain ⟨c, hc, hio, hgone⟩ := hs.waiting l task hold hraw
      obtain ⟨d, hd, hdio, hdgone⟩ := hst.conns _ c hc
      exact ⟨d, hd, hdio.trans hio, fun h => hgone (hdgone h)⟩
    · simp [hnone task hnew] at hraw

/-- A loop that drops nothing but its first task, or goes on. -/
theorem Ordered.setLoop {loop : ServerLoop} (hs : s.Ordered)
    (hsuffix : loop.waiting <:+ (s.loops l).waiting) : (s.setLoop l loop).Ordered where
  late := hs.late
  inOrder k := by
    rw [waiting_setLoop]
    split
    · exact (hs.inOrder l).sublist hsuffix.sublist
    · exact hs.inOrder k
  waiting k task htask := by
    rw [waiting_setLoop] at htask
    split at htask
    · rename_i hk
      rw [hk]
      exact hs.waiting l task (hsuffix.subset htask)
    · exact hs.waiting k task htask

/-- A raw task may be queued where no task waits that destroys its connection. -/
theorem Ordered.push {task : ServerTask} (hs : s.Ordered) (hc : s.conns task.conn = some c)
    (hgone : ¬ c.Destroyed) (hnone : .destroyed task.conn ∉ (s.loops c.io).waiting) :
    (s.queueInLoop c.io [task]).Ordered where
  late := hs.late
  inOrder k := by
    rw [waiting_queueInLoop]
    split
    · rename_i hk
      rw [hk, List.pairwise_append]
      refine ⟨hs.inOrder c.io, List.pairwise_singleton _ _, ?_⟩
      intro first hfirst second hsecond _
      rw [List.mem_singleton.mp hsecond]
      rintro rfl
      exact hnone hfirst
    · rw [List.append_nil]
      exact hs.inOrder k
  waiting k other hother hraw := by
    rw [waiting_queueInLoop] at hother
    rcases List.mem_append.mp hother with hold | hnew
    · exact hs.waiting k other hold hraw
    · split at hnew
      · rename_i hk
        rw [List.mem_singleton.mp hnew]
        exact ⟨c, hc, hk.symm, hgone⟩
      · cases hnew

/-- A connection for which no raw task waits may be destroyed. -/
theorem Ordered.setConns {d : ServerConn} (hs : s.Ordered)
    (hnone : ∀ k, ∀ task ∈ (s.loops k).waiting, task.raw = true → task.conn ≠ id) :
    (s.setConns id d).Ordered where
  late := hs.late
  inOrder := hs.inOrder
  waiting k task htask hraw := by
    rw [conns_setConns_of_ne (hnone k task htask hraw)]
    exact hs.waiting k task htask hraw

/-! ## Steps -/

/-- A connection that is not destroyed is referenced. -/
theorem Inv.strongRefs_pos_of_not_destroyed (hs : s.Inv) (hc : s.conns id = some c)
    (hgone : ¬ c.Destroyed) : 0 < s.strongRefs id := by
  obtain ⟨stage, hconn⟩ := hs.conn hc
  apply hconn.strongRefs_pos
  rintro rfl
  refine hgone ⟨false, ?_⟩
  rw [hconn.life]
  simp [Stage.life]

/-- A raw task runs on a connection that is there. -/
theorem Ordered.runRaw {task : ServerTask} {op : TcpConnection → TcpConnection} (hs : s.Ordered)
    (hinv : s.Inv) (hc : s.conns task.conn = some c) (hgone : ¬ c.Destroyed) :
    (s.runRaw task op).Ordered := by
  have hrefs : s.strongRefs task.conn ≠ 0 := (hinv.strongRefs_pos_of_not_destroyed hc hgone).ne'
  unfold TcpServer.runRaw
  rw [hc]
  simp only [if_neg hrefs, if_neg hgone]
  exact hs.extends (Extends.setTcpConnection hc)

theorem Ordered.setConnectionDestroyed (hs : s.Ordered)
    (hnone : ∀ k, ∀ task ∈ (s.loops k).waiting, task.raw = true → task.conn ≠ id) :
    (s.setConnectionDestroyed id).Ordered := by
  unfold TcpServer.setConnectionDestroyed
  split
  · split
    · exact hs.setConns hnone
    · exact hs.extends Extends.fail
  · exact hs.extends Extends.fail

theorem Ordered.runTask {task : ServerTask} {batch spent : List ServerTask} {write : WriteResult}
    (hs : s.Ordered) (hinv : s.Inv) (hphase : (s.loops l).phase = .calling (task :: batch) spent) :
    ((s.setLoop l { s.loops l with phase := .calling batch (spent ++ [task]) }).runTask write
      task).Ordered := by
  set loop : ServerLoop := { s.loops l with phase := .calling batch (spent ++ [task]) }
  have hwaiting : (s.loops l).waiting = task :: loop.waiting := by
    simp [ServerLoop.waiting, hphase, loop]
  have hpopped : (s.setLoop l loop).Ordered := hs.setLoop (hwaiting ▸ List.suffix_cons _ _)
  -- What holds of a raw task at the head of the queue.
  have hraw : task.lifecycle = false → task.raw = true → ∀ op, ((s.setLoop l loop).runRaw task
      op).Ordered := by
    intro hlifecycle htask op
    obtain ⟨c, hc, -, hgone⟩ := hs.waiting l task (hwaiting ▸ List.mem_cons_self) htask
    exact hpopped.runRaw (hinv.pop hwaiting rfl hlifecycle) hc hgone
  cases task with
  | established id => exact hpopped.extends Extends.setConnectionEstablished
  | removeInLoop id => exact hpopped.extends Extends.removeConnectionInLoop
  | callback id callback => exact hpopped
  | sendInLoop id data => exact hraw rfl rfl fun conn => conn.sendInLoop write data
  | shutDownInLoop id => exact hraw rfl rfl TcpConnection.shutDownInLoop
  | destroyed id =>
      obtain ⟨c, stage, hc, hdue, -, -⟩ := hinv.popDue hwaiting rfl rfl
      apply hpopped.setConnectionDestroyed
      intro k other hother hotherRaw hconn
      obtain ⟨d, hd, hio, -⟩ := hpopped.waiting k other hother hotherRaw
      have hc : s.conns id = some c := hc
      have hd : s.conns id = some d := hconn ▸ hd
      rw [hc] at hd
      cases hd
      cases stage <;> simp [Stage.due] at hdue
      rw [hdue.1, hio, loops_setLoop_self] at hother
      have hbehind := hs.inOrder l
      rw [hwaiting, List.pairwise_cons] at hbehind
      exact hbehind.1 other hother hotherRaw (by rw [hconn])

theorem Ordered.stepLoop {action : ServerAction} (hs : s.Ordered) (hinv : s.Inv)
    (hstep : s.stepLoop l action = some t) : t.Ordered := by
  cases action with
  | newConnection =>
      simp only [TcpServer.stepLoop] at hstep
      split at hstep
      · split at hstep <;> cases hstep
        exact hs.extends (Extends.newConnection hinv)
      · cases hstep
  | select k ready =>
      simp only [TcpServer.stepLoop] at hstep
      split at hstep
      · rename_i hphase
        split at hstep <;> cases hstep
        exact hs.setLoop (by simp [ServerLoop.waiting, hphase])
      · cases hstep
  | handleEvent k read write =>
      simp only [TcpServer.stepLoop] at hstep
      split at hstep
      · rename_i id callback callbacks ready hphase
        split at hstep
        · rename_i c hc
          split at hstep <;> cases hstep
          exact (hs.setLoop (by simp [ServerLoop.waiting, hphase])).extends
            (Extends.runCallback hc)
        · cases hstep
      · cases hstep
  | startEvent k | finishEvent k | swapPendingFuncs k | finishPendingFuncs k =>
      simp only [TcpServer.stepLoop] at hstep
      split at hstep
      · rename_i hphase
        cases hstep
        exact hs.setLoop (by simp [ServerLoop.waiting, hphase])
      · cases hstep
  | runTask k write =>
      simp only [TcpServer.stepLoop] at hstep
      split at hstep
      · split at hstep <;> cases hstep
        exact hs.runTask hinv ‹_›
      · cases hstep
  | _ => cases hstep

/-- A task queued before `RemoveConnectionInLoop` is in front of the one that
destroys the connection. -/
theorem Ordered.queueCall {task : ServerTask} (hs : s.Ordered) (hinv : s.Inv)
    (hc : s.conns task.conn = some c) (hguard : ¬ c.Removed)
    (hstep : s.stepUser task.conn c (.queueCall task) = some t) : t.Ordered := by
  obtain ⟨stage, hconn⟩ := hinv.conn hc
  have hheld : stage.Held := by
    rwa [ServerConn.Removed, hconn.life, Stage.removed_mem_life, not_not] at hguard
  have hgone : ¬ c.Destroyed := by
    rintro ⟨isConnected, h⟩
    rw [hconn.life] at h
    cases stage <;> simp [Stage.life, Stage.Held] at h hheld
  have hnone : .destroyed task.conn ∉ (s.loops c.io).waiting := by
    intro hmem
    have hdue : ServerTask.destroyed task.conn ∈ s.lifeTasks c.io task.conn :=
      List.mem_filter.mpr ⟨hmem, by simp [ServerTask.lifecycle, ServerTask.conn]⟩
    rw [hconn.tasks] at hdue
    cases stage <;> simp [Stage.due, Stage.Held] at hdue hheld
  simp only [TcpServer.stepUser] at hstep
  split at hstep <;> cases hstep
  have hextends := (Extends.setInFlight (s := s) (s.inFlight.erase task)).trans
    (Extends.setConns (d := { c with userRefs := c.userRefs + 1 }) hc rfl fun h => h)
  exact (hs.extends hextends).push (c := { c with userRefs := c.userRefs + 1 }) conns_setConns_self
    hgone hnone

theorem Ordered.stepUser {action : ServerAction} (hs : s.Ordered) (hc : s.conns id = some c)
    (haction : ∀ task, action ≠ .queueCall task) (hstep : s.stepUser id c action = some t) :
    t.Ordered := by
  cases action with
  | acquire j | drop j =>
      simp only [TcpServer.stepUser] at hstep
      split at hstep <;> cases hstep
      exact hs.extends (Extends.setConns hc rfl fun h => h)
  | callSend j data =>
      simp only [TcpServer.stepUser] at hstep
      split at hstep
      · split at hstep <;> cases hstep
        · have hused : Extends s (s.setConns id { c with userRefs := c.userRefs - 1 }) :=
            Extends.setConns hc rfl fun h => h
          exact hs.extends (hused.trans (Extends.setInFlight _))
        · exact hs
      · cases hstep
  | callShutDown j =>
      simp only [TcpServer.stepUser] at hstep
      split at hstep
      · split at hstep <;> cases hstep
        · have hused : Extends s (s.setConns id
              { c.setConn { c.conn with state := .disconnecting } with
                userRefs := c.userRefs - 1 }) :=
            Extends.setConns hc rfl fun h => h
          exact hs.extends (hused.trans (Extends.setInFlight _))
        · exact hs
      · cases hstep
  | queueCall task => exact absurd rfl (haction task)
  | send j write data | shutDown j =>
      simp only [TcpServer.stepUser] at hstep
      split at hstep <;> cases hstep
      exact hs.extends (Extends.setTcpConnection hc)
  | _ => cases hstep

theorem Ordered.step {action : ServerAction} (hs : s.Ordered) (hinv : s.Inv)
    (hguard : s.QueuedInTime action) (hstep : s.step action = some t) : t.Ordered := by
  unfold TcpServer.step at hstep
  rw [if_neg (by simp [hinv.failed])] at hstep
  cases action with
  | newConnection => exact hs.stepLoop hinv hstep
  | select l _ | startEvent l | handleEvent l _ _ | finishEvent l | swapPendingFuncs l
  | runTask l _ | finishPendingFuncs l =>
      dsimp only at hstep
      split at hstep
      · exact hs.stepLoop hinv hstep
      · cases hstep
  | acquire id | drop id | callSend id _ | callShutDown id | send id _ _ | shutDown id =>
      obtain ⟨c, hc, huser⟩ := Option.bind_eq_some_iff.mp hstep
      exact hs.stepUser hc (by simp) huser
  | queueCall task =>
      obtain ⟨c, hc, huser⟩ := Option.bind_eq_some_iff.mp hstep
      exact hs.queueCall hinv hc (hguard c hc) huser

theorem ordered_new (name : ConnName) (numThreads : ℕ) (hasWriteComplete : Bool) :
    (new name numThreads hasWriteComplete).Ordered where
  late := rfl
  inOrder _ := List.Pairwise.nil
  waiting _ _ htask := by cases htask

/-- **Raw tasks in time.**  In a run in which every call of another thread queues
its task before `RemoveConnectionInLoop`, no task runs on a connection that is
destroyed or not referenced. -/
theorem not_late (name : ConnName) (numThreads : ℕ) (hasWriteComplete : Bool)
    (actions : List ServerAction)
    (hguard : (machine name numThreads hasWriteComplete).EachStep QueuedInTime
      (machine name numThreads hasWriteComplete).init actions) :
    (machine name numThreads hasWriteComplete).Throughout NotLate
      (machine name numThreads hasWriteComplete).init actions := by
  have hrun := Machine.throughout_of_guarded (m := machine name numThreads hasWriteComplete)
    (I := fun s => s.Inv ∧ s.Ordered) (G := QueuedInTime)
    (fun s action t hs hG hstep => ⟨hs.1.step hstep, hs.2.step hs.1 hG hstep⟩)
    ⟨inv_new name numThreads hasWriteComplete, ordered_new name numThreads hasWriteComplete⟩ hguard
  exact hrun.mono fun s hs => hs.2.late

/-- A connection of the I/O loop `1` is accepted and established, and a user calls
`Send`, up to its `push_back`. -/
def sendOnce : List ServerAction :=
  [.select 0 [], .newConnection, .swapPendingFuncs 0, .finishPendingFuncs 0,
    .select 1 [], .swapPendingFuncs 1, .runTask 1 (.wrote 0), .finishPendingFuncs 1,
    .acquire 1, .callSend 1 [65]]

/-- The peer closes the connection, and the base loop removes it. -/
def peerCloses : List ServerAction :=
  [.select 1 [(1, ⟨true, false, false, false, false, false⟩)], .startEvent 1,
    .handleEvent 1 (.data []) (.wrote 0), .finishEvent 1,
    .select 0 [], .swapPendingFuncs 0, .runTask 0 (.wrote 0), .finishPendingFuncs 0]

/-- The I/O loop runs the two tasks that wait for the connection. -/
def runBoth : List ServerAction :=
  [.swapPendingFuncs 1, .runTask 1 (.wrote 0), .runTask 1 (.wrote 0)]

theorem not_late_timely :
    (machine [] 1 false).Throughout NotLate (machine [] 1 false).init
      (sendOnce ++ [.queueCall (.sendInLoop 1 [65])] ++ peerCloses ++ runBoth) :=
  not_late [] 1 false _ (by decide +kernel)

/-- A thread that is delayed between its check of `state_` and its `push_back`. -/
theorem late_behind_destroyed :
    ((machine [] 1 false).exec (machine [] 1 false).init
        (sendOnce ++ peerCloses ++ [.queueCall (.sendInLoop 1 [65])] ++ runBoth)).map
      (fun s => (s.failed, s.late)) = some (false, [.sendInLoop 1 [65]]) ∧
    ¬ (machine [] 1 false).Throughout NotLate (machine [] 1 false).init
      (sendOnce ++ peerCloses ++ [.queueCall (.sendInLoop 1 [65])] ++ runBoth) := by
  decide +kernel

end TcpServer

end YxAlpha
