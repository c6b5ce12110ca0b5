import Mathlib.Algebra.BigOperators.Group.Finset.Basic
import Mathlib.Algebra.Order.BigOperators.Group.Finset
import YxAlpha.Net.Lifecycle

/-!
# The loops settle

When nothing comes in from outside, the loops of the server work off what is there: the events
of their batches, their tasks, and the tasks that these queue.  `work` bounds the steps this
takes; every step lowers it (`Inv.work_step`), also the one by which a loop that selects is
woken up for its tasks.  A server in which no such step is left is `Quiet`, and then a
connection is either open or has gone altogether (`Resolved`): nobody is left to wait for the
destruction of a connection that has been closed.
-/

namespace YxAlpha

/-- A bound on the steps that running the task takes, with those of the tasks it queues. -/
def ServerTask.work : ServerTask → ℕ
  | removeInLoop _ | sendInLoop _ _ | shutDownInLoop _ => 5
  | established _ | destroyed _ | callback _ _ => 1

def taskWork (tasks : List ServerTask) : ℕ := (tasks.map ServerTask.work).sum

/-- The work of calling back events, of which one may close a connection. -/
def callbackWork (callbacks : List EventCallback) : ℕ := 13 * callbacks.length

def readyWork (ready : List (ℕ × Revents)) : ℕ :=
  (ready.map fun event => callbackWork event.2.callbacks + 2).sum

/-- The work of a loop that selects: it has to be woken up if there are tasks. -/
def idleWork (pending : List ServerTask) : ℕ := if pending = [] then 0 else taskWork pending + 3

def ServerLoop.work (loop : ServerLoop) : ℕ :=
  match loop.phase with
  | .selecting => idleWork loop.pending
  | .handling current ready =>
      current.elim 0 (fun event => callbackWork event.2 + 1) + readyWork ready +
        taskWork loop.pending + 2
  | .calling batch _ => taskWork batch + idleWork loop.pending + 1

namespace TcpConnection

variable {c d : TcpConnection}

theorem length_queued_queueWriteComplete :
    c.queueWriteComplete.queued.length ≤ c.queued.length + 1 := by
  unfold queueWriteComplete
  split <;> simp

/-- One callback at most: either nothing remains, or what remains raises the buffer. -/
theorem length_queued_sendInLoop (r : WriteResult) (data : Bytes) :
    (c.sendInLoop r data).queued.length ≤ c.queued.length + 1 := by
  have happend : ∀ rest, (c.appendOutput rest).queued.length ≤ c.queued.length + 1 := by
    intro rest
    unfold appendOutput
    dsimp only
    split <;> simp
  by_cases hidle : c.careWrite = false ∧ c.outputBuf.payloadSize = 0
  · rw [sendInLoop, if_pos hidle]
    cases r with
    | failed errno =>
        dsimp only [writeDirectly]
        split
        · exact happend _
        · exact Nat.le_succ _
    | wrote n =>
        by_cases hn : n < data.length
        · simp only [writeDirectly, if_pos hn, Nat.sub_pos_iff_lt]
          exact happend _
        · simp only [writeDirectly, if_neg hn, Nat.sub_pos_iff_lt]
          exact length_queued_queueWriteComplete
  · rw [sendInLoop, if_neg hidle]
    dsimp only
    split
    · exact happend _
    · exact Nat.le_succ _

theorem queued_shutDownInLoop : c.shutDownInLoop.queued = c.queued := by
  unfold shutDownInLoop
  split <;> rfl

theorem length_queued_handleWrite {r : WriteResult} (h : c.handleWrite r = some d) :
    d.queued.length ≤ c.queued.length + 1 := by
  unfold handleWrite at h
  split at h
  · cases r with
    | failed errno =>
        cases h
        exact Nat.le_succ _
    | wrote n =>
        dsimp only at h
        split at h
        · obtain ⟨buf, -, rfl⟩ := Option.map_eq_some_iff.mp h
          split
          · unfold outputDrained
            dsimp only
            split
            · rw [queued_shutDownInLoop]
              exact length_queued_queueWriteComplete
            · exact length_queued_queueWriteComplete
          · exact Nat.le_succ _
        · cases h
          exact Nat.le_succ _
  · cases h
    exact Nat.le_succ _

end TcpConnection

namespace TcpServer

variable {s t u : TcpServer} {id l n m : ℕ} {c : ServerConn}

def work (s : TcpServer) : ℕ := ∑ l ∈ Finset.range (s.numThreads + 1), (s.loops l).work

/-- No connection holds back callbacks that it has asked for. -/
def NothingQueued (s : TcpServer) : Prop := ∀ id c, s.conns id = some c → c.conn.queued = []

/-! ## What operations cost -/

theorem taskWork_append (tasks more : List ServerTask) :
    taskWork (tasks ++ more) = taskWork tasks + taskWork more := by
  simp [taskWork]

theorem idleWork_append (pending tasks : List ServerTask) :
    idleWork (pending ++ tasks) ≤ idleWork pending + idleWork tasks := by
  by_cases htasks : tasks = []
  · simp [htasks, idleWork]
  · by_cases hpending : pending = []
    · simp [hpending, idleWork]
    · simp only [idleWork, List.append_eq_nil_iff, htasks, hpending, and_self, if_false,
        taskWork_append]
      omega

theorem taskWork_le_idleWork (tasks : List ServerTask) : taskWork tasks ≤ idleWork tasks := by
  unfold idleWork
  split
  · rename_i h
    simp [h, taskWork]
  · exact Nat.le_add_right _ _

/-- Tasks queued in a loop cost it their work, and maybe a wakeup. -/
theorem work_push (loop : ServerLoop) (tasks : List ServerTask) :
    ({ loop with pending := loop.pending ++ tasks } : ServerLoop).work ≤
      loop.work + idleWork tasks := by
  have htasks := taskWork_le_idleWork tasks
  have hidle := idleWork_append loop.pending tasks
  unfold ServerLoop.work
  cases loop.phase with
  | selecting => exact hidle
  | handling current ready =>
      dsimp only
      rw [taskWork_append]
      omega
  | calling batch spent =>
      dsimp only
      omega

/-- The work of the server when a loop of it changes. -/
theorem work_setLoop (loop : ServerLoop) (hl : l ≤ s.numThreads) :
    (s.setLoop l loop).work + (s.loops l).work = s.work + loop.work := by
  have hmem : l ∈ Finset.range (s.numThreads + 1) := Finset.mem_range.mpr (Nat.lt_succ_of_le hl)
  have hrest : ∑ k ∈ (Finset.range (s.numThreads + 1)).erase l, ((s.setLoop l loop).loops k).work =
      ∑ k ∈ (Finset.range (s.numThreads + 1)).erase l, (s.loops k).work := by
    refine Finset.sum_congr rfl fun k hk => ?_
    rw [loops_setLoop_of_ne (Finset.ne_of_mem_erase hk)]
  have hbefore := Finset.add_sum_erase _ (fun k => (s.loops k).work) hmem
  have hafter := Finset.add_sum_erase _ (fun k => ((s.setLoop l loop).loops k).work) hmem
  rw [hrest, loops_setLoop_self] at hafter
  show ∑ k ∈ Finset.range (s.numThreads + 1), ((s.setLoop l loop).loops k).work + _ = s.work + _
  rw [← hafter, work, ← hbefore]
  omega

theorem work_setLoop_le {loop : ServerLoop} (hwork : loop.work ≤ (s.loops l).work + n) :
    (s.setLoop l loop).work ≤ s.work + n := by
  by_cases hl : l ≤ s.numThreads
  · have hset := work_setLoop loop hl
    omega
  · have hsame : (s.setLoop l loop).work = s.work := by
      refine Finset.sum_congr rfl fun k hk => ?_
      have hk : k ≤ s.numThreads := Nat.le_of_lt_succ (Finset.mem_range.mp hk)
      rw [loops_setLoop_of_ne (by omega)]
    omega

/-- From `s` to `t` work of `n` at most is added, and connections live on. -/
structure Costs (n : ℕ) (s t : TcpServer) : Prop where
  numThreads : t.numThreads = s.numThreads
  work : t.work ≤ s.work + n
  queued : s.NothingQueued → t.NothingQueued
  life : ∀ id c, s.conns id = some c → ∃ d, t.conns id = some d ∧ c.life <+: d.life

namespace Costs

theorem refl (s : TcpServer) : Costs 0 s s :=
  ⟨rfl, le_rfl, fun h => h, fun _ c hc => ⟨c, hc, List.prefix_rfl⟩⟩

theorem trans (hst : Costs n s t) (htu : Costs m t u) : Costs (n + m) s u where
  numThreads := htu.numThreads.trans hst.numThreads
  work := by
    have hs := hst.work
    have ht := htu.work
    omega
  queued h := htu.queued (hst.queued h)
  life id c hc := by
    obtain ⟨d, hd, hcd⟩ := hst.life id c hc
    obtain ⟨e, he, hde⟩ := htu.life id d hd
    exact ⟨e, he, hcd.trans hde⟩

theorem mono (hst : Costs n s t) (hnm : n ≤ m) : Costs m s t :=
  { hst with work := hst.work.trans (Nat.add_le_add_left hnm _) }

/-- A change of what has nothing to do with connections and loops. -/
theorem frame (hthreads : t.numThreads = s.numThreads) (hloops : t.loops = s.loops)
    (hconns : t.conns = s.conns) : Costs 0 s t where
  numThreads := hthreads
  work := by rw [TcpServer.work, TcpServer.work, hthreads, hloops]; exact le_rfl
  queued h := by rw [NothingQueued, hconns]; exact h
  life id c hc := ⟨c, by rw [hconns, hc], List.prefix_rfl⟩

theorem setConns {d : ServerConn} (hc : s.conns id = some c) (hlife : c.life <+: d.life)
    (hqueued : c.conn.queued = [] → d.conn.queued = []) : Costs 0 s (s.setConns id d) where
  numThreads := rfl
  work := le_rfl
  queued h j e he := by
    by_cases hj : j = id
    · subst hj
      rw [conns_setConns_self] at he
      cases he
      exact hqueued (h j c hc)
    · exact h j e (by rwa [conns_setConns_of_ne hj] at he)
  life j e he := by
    by_cases hj : j = id
    · subst hj
      rw [hc] at he
      cases he
      exact ⟨d, conns_setConns_self, hlife⟩
    · exact ⟨e, by rw [conns_setConns_of_ne hj, he], List.prefix_rfl⟩

theorem queueInLoop (tasks : List ServerTask) :
    Costs (idleWork tasks) s (s.queueInLoop l tasks) where
  numThreads := rfl
  work := work_setLoop_le (work_push _ tasks)
  queued h := h
  life _ c hc := ⟨c, hc, List.prefix_rfl⟩

theorem fail : Costs 0 s s.fail := frame rfl rfl rfl

theorem setTcpConnection {conn : TcpConnection} (hc : s.conns id = some c)
    (hqueued : conn.queued.length ≤ 1) : Costs 4 s (s.setTcpConnection id c conn) := by
  have hwork : idleWork (conn.queued.map (.callback id)) ≤ 4 := by
    match conn.queued, hqueued with
    | [], _ => exact Nat.zero_le _
    | [callback], _ => exact le_rfl
  have hset : Costs 0 s (s.setConns id (c.setConn { conn with queued := [] })) :=
    setConns hc List.prefix_rfl fun _ => rfl
  exact (hset.trans (queueInLoop _)).mono (by omega)

theorem setConnectionEstablished : Costs 0 s (s.setConnectionEstablished id) := by
  unfold TcpServer.setConnectionEstablished
  split
  · rename_i c hc
    split
    · rename_i conn hconn
      refine setConns hc (List.prefix_append _ _) fun h => ?_
      rw [TcpConnection.setConnectionEstablished, Option.ite_none_right_eq_some] at hconn
      cases hconn.2
      exact h
    · exact fail
  · exact fail

theorem setConnectionDestroyed : Costs 0 s (s.setConnectionDestroyed id) := by
  unfold TcpServer.setConnectionDestroyed
  split
  · rename_i c hc
    split
    · rename_i conn hconn
      refine setConns hc (List.prefix_append _ _) fun h => ?_
      rw [TcpConnection.setConnectionDestroyed, Option.ite_none_right_eq_some] at hconn
      cases hconn.2
      exact h
    · exact fail
  · exact fail

/-- The task that destroys the connection is queued. -/
theorem removeConnectionInLoop : Costs 4 s (s.removeConnectionInLoop id) := by
  unfold TcpServer.removeConnectionInLoop
  split
  · rename_i c hc
    have herased : Costs 0 s
        { s with connections := s.connections.filter fun entry => entry.1 ≠ c.name } :=
      frame rfl rfl rfl
    have hrecorded := herased.trans (setConns
      (d := c.record (.removed (s.connections.countP fun entry => entry.1 = c.name))) hc
      (List.prefix_append _ _) fun h => h)
    dsimp only
    split
    · exact (hrecorded.trans (queueInLoop [.destroyed id])).mono le_rfl
    · exact (hrecorded.trans fail).mono (Nat.zero_le _)
  · exact fail.mono (Nat.zero_le _)

theorem handleClose : Costs 8 s (s.handleClose id) := by
  unfold TcpServer.handleClose
  split
  · rename_i c hc
    split
    · rename_i conn hconn
      rw [TcpConnection.handleClose, Option.ite_none_right_eq_some] at hconn
      have hclosed : Costs 0 s (s.setConns id ((c.setConn conn).record .closed)) :=
        setConns hc (List.prefix_append _ _) fun h => by
          cases hconn.2
          exact h
      unfold removeConnection
      split
      · exact (hclosed.trans removeConnectionInLoop).mono (by omega)
      · exact hclosed.trans (queueInLoop [.removeInLoop id])
    · have hclosed : Costs 0 s (s.setConns id (c.record .closed)) :=
        setConns hc (List.prefix_append _ _) fun h => h
      exact (hclosed.trans fail).mono (Nat.zero_le _)
  · exact fail.mono (Nat.zero_le _)

theorem runCallback {callback : EventCallback} {read : Buffer.ReadResult} {write : WriteResult}
    (hc : s.conns id = some c) (hqueued : c.conn.queued = []) :
    Costs 12 s (s.runCallback id c read write callback) := by
  cases callback with
  | read =>
      have hread : Costs 4 s (s.setTcpConnection id c (c.conn.handleRead read)) := by
        refine setTcpConnection hc ?_
        simp [TcpConnection.handleRead, hqueued]
      simp only [TcpServer.runCallback]
      split
      · exact hread.trans handleClose
      · exact hread.mono (by omega)
  | close | error | write =>
      simp only [TcpServer.runCallback]
      split
      · rename_i conn hconn
        have hlength := TcpConnection.length_queued_handleWrite hconn
        rw [hqueued] at hlength
        exact (setTcpConnection hc hlength).mono (by omega)
      · exact fail.mono (Nat.zero_le _)

theorem runRaw {task : ServerTask} {op : TcpConnection → TcpConnection} (hs : s.NothingQueued)
    (hop : ∀ conn, (op conn).queued.length ≤ conn.queued.length + 1) :
    Costs 4 s (s.runRaw task op) := by
  have hlate : ∀ u : TcpServer, Costs 0 u { u with late := s.late ++ [task] } :=
    fun _ => frame rfl rfl rfl
  unfold TcpServer.runRaw
  split
  · rename_i c hc
    have hlength := hop c.conn
    rw [hs _ c hc] at hlength
    have hran := setTcpConnection hc hlength
    split
    · exact (hlate s).mono (Nat.zero_le _)
    · dsimp only
      split
      · exact hran.trans (hlate _)
      · exact hran
  · exact (hlate s).mono (Nat.zero_le _)

theorem runTask {task : ServerTask} {write : WriteResult} (hs : s.NothingQueued) :
    Costs (task.work - 1) s (s.runTask write task) := by
  cases task with
  | established id => exact setConnectionEstablished.mono (Nat.zero_le _)
  | removeInLoop id => exact removeConnectionInLoop.mono le_rfl
  | destroyed id => exact setConnectionDestroyed.mono (Nat.zero_le _)
  | callback id callback => exact (refl s).mono (Nat.zero_le _)
  | sendInLoop id data =>
      have hran :
          Costs 4 s (s.runRaw (.sendInLoop id data) fun conn => conn.sendInLoop write data) :=
        runRaw hs fun conn => conn.length_queued_sendInLoop write data
      exact hran.mono le_rfl
  | shutDownInLoop id =>
      have hran : Costs 4 s (s.runRaw (.shutDownInLoop id) TcpConnection.shutDownInLoop) :=
        runRaw hs fun conn => by rw [TcpConnection.queued_shutDownInLoop]; exact Nat.le_succ _
      exact hran.mono le_rfl

end Costs

/-! ## Steps that work off what is there -/

/-- A step that takes in nothing from outside; a loop that selects is woken up for its tasks. -/
def WorksOff (s : TcpServer) : ServerAction → Prop
  | .select l ready => ready = [] ∧ (s.loops l).pending ≠ []
  | .startEvent _ | .handleEvent _ _ _ | .finishEvent _ | .swapPendingFuncs _ | .runTask _ _
  | .finishPendingFuncs _ => True
  | _ => False

/-- The loop goes on, which saves more work than the step adds. -/
structure Spends (l : ℕ) (s t : TcpServer) : Prop where
  numThreads : t.numThreads = s.numThreads
  work : l ≤ s.numThreads → t.work + 1 ≤ s.work
  queued : t.NothingQueued
  life : ∀ id c, s.conns id = some c → ∃ d, t.conns id = some d ∧ c.life <+: d.life

theorem Costs.spends {loop : ServerLoop} (hs : s.NothingQueued)
    (ht : Costs n (s.setLoop l loop) t) (hloop : loop.work + n + 1 ≤ (s.loops l).work) :
    Spends l s t where
  numThreads := ht.numThreads
  work hl := by
    have hset := work_setLoop loop hl
    have hcost := ht.work
    omega
  queued := ht.queued hs
  life := ht.life

theorem NothingQueued.spends {action : ServerAction} (hs : s.NothingQueued)
    (hselect : ∀ k ready, action = .select k ready → ready = [] ∧ (s.loops l).pending ≠ [])
    (hnew : action ≠ .newConnection) (hstep : s.stepLoop l action = some t) : Spends l s t := by
  cases action with
  | newConnection => exact absurd rfl hnew
  | select k ready =>
      obtain ⟨rfl, hpending⟩ := hselect k ready rfl
      simp only [TcpServer.stepLoop] at hstep
      split at hstep
      · rename_i hphase
        split at hstep <;> cases hstep
        refine (Costs.refl _).spends hs ?_
        simp [ServerLoop.work, hphase, idleWork, hpending, readyWork]
      · cases hstep
  | startEvent k =>
      simp only [TcpServer.stepLoop] at hstep
      split at hstep
      · rename_i hphase
        cases hstep
        refine (Costs.refl _).spends hs ?_
        simp only [ServerLoop.work, hphase, readyWork, List.map_cons, List.sum_cons, Option.elim]
        omega
      · cases hstep
  | finishEvent k =>
      simp only [TcpServer.stepLoop] at hstep
      split at hstep
      · rename_i hphase
        cases hstep
        refine (Costs.refl _).spends hs ?_
        simp only [ServerLoop.work, hphase, Option.elim, callbackWork]
        omega
      · cases hstep
  | swapPendingFuncs k =>
      simp only [TcpServer.stepLoop] at hstep
      split at hstep
      · rename_i hphase
        cases hstep
        refine (Costs.refl _).spends hs ?_
        simp only [ServerLoop.work, hphase, idleWork, readyWork, Option.elim, List.map_nil,
          List.sum_nil, if_true]
        omega
      · cases hstep
  | finishPendingFuncs k =>
      simp only [TcpServer.stepLoop] at hstep
      split at hstep
      · rename_i hphase
        cases hstep
        refine (Costs.refl _).spends hs ?_
        simp only [ServerLoop.work, hphase, taskWork, List.map_nil, List.sum_nil]
        omega
      · cases hstep
  | handleEvent k read write =>
      simp only [TcpServer.stepLoop] at hstep
      split at hstep
      · rename_i hphase
        split at hstep
        · rename_i c hc
          split at hstep <;> cases hstep
          refine (Costs.spends hs (Costs.runCallback (s := s.setLoop l _) hc (hs _ c hc)) ?_)
          simp only [ServerLoop.work, hphase, Option.elim, callbackWork, List.length_cons]
          omega
        · cases hstep
      · cases hstep
  | runTask k write =>
      simp only [TcpServer.stepLoop] at hstep
      split at hstep
      · rename_i task batch spent hphase
        split at hstep <;> cases hstep
        refine Costs.spends hs (Costs.runTask (s := s.setLoop l _) hs) ?_
        have hpos : 1 ≤ task.work := by cases task <;> simp [ServerTask.work]
        simp only [ServerLoop.work, hphase, taskWork, List.map_cons, List.sum_cons]
        omega
      · cases hstep
  | _ => cases hstep

theorem NothingQueued.spends_step {action : ServerAction} (hs : s.NothingQueued)
    (hworks : s.WorksOff action) (hstep : s.step action = some t) :
    ∃ l ≤ s.numThreads, Spends l s t := by
  unfold TcpServer.step at hstep
  split at hstep
  · cases hstep
  · cases action with
    | select l ready =>
        dsimp only at hstep
        split at hstep
        · refine ⟨l, ‹_›, hs.spends ?_ (by simp) hstep⟩
          rintro _ _ ⟨⟩
          exact hworks
        · cases hstep
    | startEvent l | handleEvent l _ _ | finishEvent l | swapPendingFuncs l | runTask l _
    | finishPendingFuncs l =>
        dsimp only at hstep
        split at hstep
        · exact ⟨l, ‹_›, hs.spends (by simp) (by simp) hstep⟩
        · cases hstep
    | _ => cases hworks

theorem NothingQueued.setConns {d : ServerConn} (hs : s.NothingQueued)
    (hd : d.conn.queued = []) : (s.setConns id d).NothingQueued := by
  intro j e he
  by_cases hj : j = id
  · subst hj
    rw [conns_setConns_self] at he
    cases he
    exact hd
  · exact hs j e (by rwa [conns_setConns_of_ne hj] at he)

theorem NothingQueued.newConnection (hs : s.NothingQueued) (hinv : s.Inv) :
    s.newConnection.NothingQueued := by
  have haccept : (s.accept s.getNextDispatcher.2 s.newConn).NothingQueued :=
    NothingQueued.setConns hs rfl
  rw [hinv.newConnection_eq]
  split
  · exact Costs.setConnectionEstablished.queued haccept
  · exact (Costs.queueInLoop _).queued haccept

theorem NothingQueued.stepUser {action : ServerAction} (hs : s.NothingQueued)
    (hc : s.conns id = some c) (hstep : s.stepUser id c action = some t) : t.NothingQueued := by
  have hqueued := hs id c hc
  cases action with
  | acquire j | drop j | queueCall j =>
      simp only [TcpServer.stepUser] at hstep
      split at hstep <;> cases hstep
      exact hs.setConns hqueued
  | callSend j data | callShutDown j =>
      simp only [TcpServer.stepUser] at hstep
      split at hstep
      · split at hstep <;> cases hstep
        · exact hs.setConns hqueued
        · exact hs
      · cases hstep
  | send j write data | shutDown j =>
      simp only [TcpServer.stepUser] at hstep
      split at hstep <;> cases hstep
      exact hs.setConns rfl
  | _ => cases hstep

theorem NothingQueued.step {action : ServerAction} (hs : s.NothingQueued) (hinv : s.Inv)
    (hstep : s.step action = some t) : t.NothingQueued := by
  by_cases hworks : s.WorksOff action
  · obtain ⟨l, -, hspends⟩ := hs.spends_step hworks hstep
    exact hspends.queued
  · unfold TcpServer.step at hstep
    rw [if_neg (by simp [hinv.failed])] at hstep
    cases action with
    | newConnection =>
        simp only [TcpServer.stepLoop] at hstep
        split at hstep
        · split at hstep <;> cases hstep
          exact hs.newConnection hinv
        · cases hstep
    | select l ready =>
        simp only [TcpServer.stepLoop] at hstep
        split at hstep
        · split at hstep
          · split at hstep <;> cases hstep
            exact hs
          · cases hstep
        · cases hstep
    | acquire id | drop id | callSend id _ | callShutDown id | send id _ _ | shutDown id
    | queueCall task =>
        obtain ⟨c, hc, huser⟩ := Option.bind_eq_some_iff.mp hstep
        exact hs.stepUser hc huser
    | _ => exact absurd trivial hworks

/-! ## When nothing is left -/

/-- All loops select, and have no tasks. -/
def Quiet (s : TcpServer) : Prop :=
  ∀ l ≤ s.numThreads, (s.loops l).phase = .selecting ∧ (s.loops l).pending = []

/-- The references that users hold to a connection. -/
def refsOfUsers (s : TcpServer) (id : ℕ) (c : ServerConn) : ℕ :=
  c.userRefs + s.inFlight.countP fun task => task.conn = id

/-- The connection is open, and the server holds it, or it is gone and nobody but users knows of
it any more. -/
def Resolved (s : TcpServer) (id : ℕ) (c : ServerConn) : Prop :=
  (c.life = Stage.live.life ∧ c.conn.state ≠ .disconnected ∧ c.registered = true ∧
      (c.name, id) ∈ s.connections ∧ s.strongRefs id = s.refsOfUsers id c + 1) ∨
    (c.life = Stage.gone.life ∧ c.conn.state = .disconnected ∧ c.registered = false ∧
      (c.name, id) ∉ s.connections ∧ s.strongRefs id = s.refsOfUsers id c)

theorem Inv.countP_connections (hs : s.Inv) (hc : s.conns id = some c) :
    (s.connections.countP fun entry => entry.2 = id) =
      if (c.name, id) ∈ s.connections then 1 else 0 := by
  have hentry : ∀ entry ∈ s.connections, entry.2 = id ↔ entry = (c.name, id) := by
    intro entry hentry
    constructor
    · rintro rfl
      obtain ⟨d, hd, hname⟩ := hs.entries entry hentry
      rw [hc] at hd
      cases hd
      rw [hname]
    · rintro rfl
      rfl
  have hcount : (s.connections.countP fun entry => entry.2 = id) =
      s.connections.count (c.name, id) := by
    refine List.countP_congr fun entry hmem => ?_
    simpa using hentry entry hmem
  rw [hcount]
  split
  · exact List.count_eq_one_of_mem (List.Nodup.of_map _ hs.keys) ‹_›
  · exact List.count_eq_zero.mpr ‹_›

/-- A quiet server has no tasks that hold a connection. -/
theorem Quiet.strongRefs_eq (hquiet : s.Quiet) (hs : s.Inv) (hc : s.conns id = some c) :
    s.strongRefs id = (if (c.name, id) ∈ s.connections then 1 else 0) + s.refsOfUsers id c := by
  have htasks : ((List.range (s.numThreads + 1)).map fun l =>
      (s.loops l).tasks.countP fun task => task.Holds id).sum = 0 := by
    rw [List.sum_eq_zero_iff]
    intro n hn
    obtain ⟨l, hl, rfl⟩ := List.mem_map.mp hn
    obtain ⟨hphase, hpending⟩ := hquiet l (Nat.le_of_lt_succ (List.mem_range.mp hl))
    simp [ServerLoop.tasks, hphase, hpending]
  rw [strongRefs, htasks, hs.countP_connections hc, hc, refsOfUsers]
  dsimp only [Option.elim]
  omega

theorem Quiet.resolved (hquiet : s.Quiet) (hs : s.Inv) (hc : s.conns id = some c) :
    s.Resolved id c := by
  obtain ⟨stage, hconn⟩ := hs.conn hc
  have hrefs := hquiet.strongRefs_eq hs hc
  -- no task is due
  have hdue : ∀ l ≤ s.numThreads, stage.due c.io id l = [] := by
    intro l hl
    rw [← hconn.tasks l, lifeTasks, ServerLoop.waiting, (hquiet l hl).1, (hquiet l hl).2]
    rfl
  cases stage with
  | accepted | removed => simpa [Stage.due] using hdue c.io hconn.io
  | closing => simpa [Stage.due] using hdue 0 (Nat.zero_le _)
  | live =>
      have hheld : (c.name, id) ∈ s.connections := hconn.held.mpr trivial
      refine Or.inl ⟨hconn.life, ?_, hconn.registered.mpr (by decide), hheld, ?_⟩
      · have hlast := hconn.state
        rcases hconn.history with h | h
        all_goals
          rw [h] at hlast
          rw [← Option.some.inj hlast]
          decide
      · rw [hrefs, if_pos hheld, Nat.add_comm]
  | gone =>
      have hheld : (c.name, id) ∉ s.connections := fun h => hconn.held.mp h
      refine Or.inr ⟨hconn.life, ?_, ?_, hheld, ?_⟩
      · have hlast := hconn.state
        rcases hconn.history with h | h
        all_goals
          rw [h] at hlast
          exact (Option.some.inj hlast).symm
      · exact Bool.eq_false_iff.mpr fun h => hconn.registered.mp h rfl
      · rw [hrefs, if_neg hheld, Nat.zero_add]

/-! ## Runs -/

/-- What comes of a server that is left to itself. -/
structure Settles (server : Machine TcpServer ServerAction) (s : TcpServer) : Prop where
  /-- No run of its loops goes on for ever. -/
  bounded : ∀ actions t, server.EachStep WorksOff s actions → server.exec s actions = some t →
    actions.length + t.work ≤ s.work
  /-- Where a run cannot go on, every connection is open or gone, and those that had been closed
  are gone. -/
  resolved : ∀ actions t, server.EachStep WorksOff s actions → server.exec s actions = some t →
    (∀ action u, t.WorksOff action → server.step t action ≠ some u) →
      t.Quiet ∧ (∀ id d, t.conns id = some d → t.Resolved id d) ∧
        ∀ id c, s.conns id = some c → .closed ∈ c.life →
          ∃ d, t.conns id = some d ∧ d.life = Stage.gone.life

variable {name : ConnName} {numThreads : ℕ} {hasWriteComplete : Bool}

end TcpServer

end YxAlpha
