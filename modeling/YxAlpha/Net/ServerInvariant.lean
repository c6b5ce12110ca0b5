import Mathlib.Data.List.Nodup
import YxAlpha.Net.TcpServer

/-!
# The invariant of the server

A connection goes through the stages `accepted`, `live`, `closing`, `removed` and
`gone`.  In the first, third and fourth exactly one task that moves it on is
waiting, in the loop that will run it; `Stage.due` is that task.  `ConnInv` says
what holds of a connection in a stage, `LoopInv` what holds of the epoll batch a
loop iterates over, and `Inv` of the whole server.

An operation works on one connection.  `Others` is the invariant for all other
connections, which `Others.frame` carries over an operation at once; what is left
is the connection itself.
-/

namespace YxAlpha

/-- The task moves a connection on to its next stage. -/
def ServerTask.lifecycle : ServerTask → Bool
  | established _ | removeInLoop _ | destroyed _ => true
  | callback _ _ | sendInLoop _ _ | shutDownInLoop _ => false

inductive Stage
  | accepted | live | closing | removed | gone
  deriving DecidableEq, Repr

namespace Stage

def life : Stage → List LifeEvent
  | accepted => []
  | live => [.established true]
  | closing => [.established true, .closed]
  | removed => [.established true, .closed, .removed 1]
  | gone => [.established true, .closed, .removed 1, .destroyed false]

def Allows (history : List ConnState) : Stage → Prop
  | accepted => history = [.connecting]
  | live | closing | removed =>
      history = [.connecting, .connected] ∨ history = [.connecting, .connected, .disconnecting]
  | gone =>
      history = [.connecting, .connected, .disconnected] ∨
        history = [.connecting, .connected, .disconnecting, .disconnected]

/-- The connection is in the map of the server. -/
def Held : Stage → Prop
  | accepted | live | closing => True
  | removed | gone => False

/-- The lifecycle tasks that wait in the loop `l`, for a connection of the loop
`io`. -/
def due (io id l : ℕ) : Stage → List ServerTask
  | accepted => if l = io then [.established id] else []
  | closing => if l = 0 then [.removeInLoop id] else []
  | removed => if l = io then [.destroyed id] else []
  | live | gone => []

end Stage

namespace TcpServer

/-- The lifecycle tasks of a connection that wait in a loop. -/
def lifeTasks (s : TcpServer) (l id : ℕ) : List ServerTask :=
  (s.loops l).waiting.filter fun task => task.lifecycle ∧ task.conn = id

/-- A connection in a stage, with the lifecycle tasks `due` waiting for it. -/
structure ConnInv (s : TcpServer) (id : ℕ) (c : ServerConn) (stage : Stage)
    (due : ℕ → List ServerTask) : Prop where
  name : c.name = s.name ++ Nat.toDigits 10 id
  io : c.io ≤ s.numThreads
  life : c.life = stage.life
  history : stage.Allows c.history
  state : c.history.getLast? = some c.conn.state
  careRead : c.conn.careRead = true → stage = .live
  registered : c.registered = true ↔ stage ≠ .gone
  held : (c.name, id) ∈ s.connections ↔ stage.Held
  tasks : ∀ l, s.lifeTasks l id = due l

/-- The handler in the epoll batch is that of a connection of the loop, and a read
callback is only due while the connection cares for it. -/
def EventInv (s : TcpServer) (l : ℕ) (event : ℕ × List EventCallback) : Prop :=
  event.2.Nodup ∧ ∃ c, s.conns event.1 = some c ∧ c.io = l ∧ c.registered = true ∧
    (.read ∈ event.2 → c.conn.careRead = true)

structure LoopInv (s : TcpServer) (l : ℕ) : Prop where
  nodup : ((s.loops l).events.map Prod.fst).Nodup
  events : ∀ event ∈ (s.loops l).events, s.EventInv l event

/-- The invariant for all connections but one. -/
structure Others (s : TcpServer) (id : ℕ) : Prop where
  failed : s.failed = false
  next : s.numThreads ≠ 0 → s.next < s.numThreads
  known : ∀ j, (s.conns j).isSome ↔ 0 < j ∧ j ≤ s.connId
  unknown : ∀ l j, s.conns j = none → s.lifeTasks l j = []
  keys : (s.connections.map Prod.fst).Nodup
  entries : ∀ entry ∈ s.connections, ∃ c, s.conns entry.2 = some c ∧ c.name = entry.1
  loops : ∀ l, s.LoopInv l
  inFlight : ∀ task ∈ s.inFlight, task.lifecycle = false
  conns : ∀ j c, j ≠ id → s.conns j = some c →
      ∃ stage, s.ConnInv j c stage fun l => stage.due c.io j l

/-- The invariant: no connection is left out, as `0` is not a connection. -/
def Inv (s : TcpServer) : Prop := s.Others 0

variable {s t : TcpServer} {id l : ℕ} {c : ServerConn} {stage : Stage}

theorem Inv.conn (hs : s.Inv) (hc : s.conns id = some c) :
    ∃ stage, s.ConnInv id c stage fun l => stage.due c.io id l := by
  have hpos := ((hs.known id).mp (by simp [hc])).1
  exact hs.conns id c hpos.ne' hc

theorem Inv.others (hs : s.Inv) (id : ℕ) : s.Others id :=
  { hs with conns := fun _ _ _ hc => hs.conn hc }

/-- The invariant, from all connections but one and that one. -/
theorem Others.inv (hs : s.Others id) (stage : Stage) (hc : s.conns id = some c)
    (hconn : s.ConnInv id c stage fun l => stage.due c.io id l) : s.Inv := by
  refine { hs with conns := ?_ }
  intro j d _ hd
  by_cases hj : j = id
  · subst hj
    rw [hc] at hd
    cases hd
    exact ⟨stage, hconn⟩
  · exact hs.conns j d hj hd

theorem inv_new (name : ConnName) (numThreads : ℕ) (hasWriteComplete : Bool) :
    (new name numThreads hasWriteComplete).Inv where
  failed := rfl
  next h := Nat.pos_of_ne_zero h
  known j := by
    simp only [new, Option.isSome_none, Bool.false_eq_true, false_iff]
    omega
  unknown _ _ _ := rfl
  keys := by simp [new]
  entries := by simp [new]
  loops l := ⟨by simp [new, ServerLoop.new, ServerLoop.events],
    by simp [new, ServerLoop.new, ServerLoop.events]⟩
  inFlight := by simp [new]
  conns := by simp [new]

/-! ## Changes to one connection -/

/-- From `s` to `t` only the connection `id` changes. -/
structure Only (id : ℕ) (s t : TcpServer) : Prop where
  name : t.name = s.name
  numThreads : t.numThreads = s.numThreads
  conns : ∀ j, j ≠ id → t.conns j = s.conns j
  entries : ∀ name j, j ≠ id → ((name, j) ∈ t.connections ↔ (name, j) ∈ s.connections)
  tasks : ∀ l j, j ≠ id → t.lifeTasks l j = s.lifeTasks l j

theorem Only.refl (id : ℕ) (s : TcpServer) : Only id s s :=
  ⟨rfl, rfl, fun _ _ => rfl, fun _ _ _ => Iff.rfl, fun _ _ _ => rfl⟩

theorem ConnInv.frame {j : ℕ} {due : ℕ → List ServerTask} (hc : s.ConnInv j c stage due)
    (honly : Only id s t) (hj : j ≠ id) : t.ConnInv j c stage due :=
  { hc with
    name := by rw [honly.name]; exact hc.name
    io := by rw [honly.numThreads]; exact hc.io
    held := (honly.entries _ _ hj).trans hc.held
    tasks := fun l => (honly.tasks l j hj).trans (hc.tasks l) }

theorem LoopInv.frame (hs : s.LoopInv l) (honly : Only id s t)
    (hevents : (t.loops l).events = (s.loops l).events)
    (hid : ∀ callbacks, (id, callbacks) ∈ (s.loops l).events → t.EventInv l (id, callbacks)) :
    t.LoopInv l := by
  refine ⟨by rw [hevents]; exact hs.nodup, ?_⟩
  intro event hevent
  rw [hevents] at hevent
  obtain ⟨hnodup, d, hd, hrest⟩ := hs.events event hevent
  by_cases hj : event.1 = id
  · obtain ⟨j, callbacks⟩ := event
    obtain rfl : j = id := hj
    exact hid callbacks hevent
  · exact ⟨hnodup, d, by rw [honly.conns _ hj, hd], hrest⟩

theorem Others.frame {c' : ServerConn} (hs : s.Others id) (honly : Only id s t)
    (hc : s.conns id = some c) (hc' : t.conns id = some c') (hname : c'.name = c.name)
    (hconnections : t.connections.Sublist s.connections) (hfailed : t.failed = false)
    (hnext : t.next = s.next) (hconnId : t.connId = s.connId) (hinFlight : t.inFlight = s.inFlight)
    (hloops : ∀ l, t.LoopInv l) : t.Others id where
  failed := hfailed
  next := by rw [honly.numThreads, hnext]; exact hs.next
  known j := by
    rw [hconnId, ← hs.known]
    by_cases hj : j = id
    · rw [hj, hc, hc']
      rfl
    · rw [honly.conns j hj]
  unknown l j hj := by
    have hne : j ≠ id := by
      rintro rfl
      rw [hc'] at hj
      cases hj
    rw [honly.tasks l j hne]
    exact hs.unknown l j (by rw [← honly.conns j hne, hj])
  keys := (hconnections.map _).nodup hs.keys
  entries entry hentry := by
    obtain ⟨d, hd, hdname⟩ := hs.entries entry (hconnections.subset hentry)
    by_cases hj : entry.2 = id
    · rw [hj, hc] at hd
      cases hd
      exact ⟨c', by rw [hj, hc'], by rw [hname, hdname]⟩
    · exact ⟨d, by rw [honly.conns _ hj, hd], hdname⟩
  loops := hloops
  inFlight := by rw [hinFlight]; exact hs.inFlight
  conns j d hj hd := by
    obtain ⟨stage, hconn⟩ := hs.conns j d hj (by rw [← honly.conns j hj, hd])
    exact ⟨stage, hconn.frame honly hj⟩

/-! ## Storing connections and queueing tasks -/

@[simp] theorem conns_setConns_self : (s.setConns id c).conns id = some c :=
  Function.update_self _ _ _

theorem conns_setConns_of_ne {j : ℕ} (hj : j ≠ id) : (s.setConns id c).conns j = s.conns j :=
  Function.update_of_ne hj _ _

@[simp] theorem lifeTasks_setConns (j : ℕ) : (s.setConns id c).lifeTasks l j = s.lifeTasks l j :=
  rfl

theorem only_setConns : Only id s (s.setConns id c) :=
  ⟨rfl, rfl, fun _ hj => conns_setConns_of_ne hj, fun _ _ _ => Iff.rfl, fun _ _ _ => rfl⟩

@[simp] theorem loops_setLoop_self {loop : ServerLoop} : (s.setLoop l loop).loops l = loop :=
  Function.update_self _ _ _

theorem loops_setLoop_of_ne {loop : ServerLoop} {k : ℕ} (hk : k ≠ l) :
    (s.setLoop l loop).loops k = s.loops k :=
  Function.update_of_ne hk _ _

theorem waiting_append (loop : ServerLoop) (tasks : List ServerTask) :
    ({ loop with pending := loop.pending ++ tasks } : ServerLoop).waiting =
      loop.waiting ++ tasks := by
  unfold ServerLoop.waiting
  split <;> simp_all

theorem waiting_queueInLoop (tasks : List ServerTask) (k : ℕ) :
    ((s.queueInLoop l tasks).loops k).waiting =
      (s.loops k).waiting ++ if k = l then tasks else [] := by
  unfold queueInLoop
  by_cases hk : k = l
  · rw [hk, loops_setLoop_self, waiting_append, if_pos rfl]
  · rw [loops_setLoop_of_ne hk, if_neg hk, List.append_nil]

theorem lifeTasks_queueInLoop (tasks : List ServerTask) (k j : ℕ) :
    (s.queueInLoop l tasks).lifeTasks k j =
      s.lifeTasks k j ++
        if k = l then tasks.filter fun task => task.lifecycle ∧ task.conn = j else [] := by
  unfold lifeTasks
  rw [waiting_queueInLoop, List.filter_append]
  split <;> simp

@[simp] theorem events_queueInLoop (tasks : List ServerTask) (k : ℕ) :
    ((s.queueInLoop l tasks).loops k).events = (s.loops k).events := by
  unfold queueInLoop
  by_cases hk : k = l
  · rw [hk, loops_setLoop_self]
    rfl
  · rw [loops_setLoop_of_ne hk]

/-- Queueing a task about `id` changes nothing for another connection. -/
theorem only_queueInLoop {tasks : List ServerTask} (htasks : ∀ task ∈ tasks, task.conn = id) :
    Only id s (s.queueInLoop l tasks) where
  name := rfl
  numThreads := rfl
  conns _ _ := rfl
  entries _ _ _ := Iff.rfl
  tasks k j hj := by
    rw [lifeTasks_queueInLoop]
    have hnone : (tasks.filter fun task => task.lifecycle ∧ task.conn = j) = [] := by
      rw [List.filter_eq_nil_iff]
      intro task htask hboth
      simp only [decide_eq_true_eq] at hboth
      exact hj (hboth.2 ▸ htasks task htask)
    rw [hnone, ite_self, List.append_nil]

theorem Others.setConns {c' : ServerConn} (hs : s.Others id) (hc : s.conns id = some c)
    (hname : c'.name = c.name) (hloops : ∀ l, (s.setConns id c').LoopInv l) :
    (s.setConns id c').Others id :=
  hs.frame only_setConns hc conns_setConns_self hname (List.Sublist.refl _) hs.failed rfl rfl rfl
    hloops

/-- Storing a connection that stays in its loop, registered, and cares for what it
cared for. -/
theorem LoopInv.setConns {c' : ServerConn} (hs : s.LoopInv l) (hc : s.conns id = some c)
    (hio : c'.io = c.io) (hregistered : c'.registered = c.registered)
    (hcare : c.conn.careRead = true → c'.conn.careRead = true) : (s.setConns id c').LoopInv l := by
  apply hs.frame only_setConns rfl
  intro callbacks hevent
  obtain ⟨hnodup, d, hd, hdio, hdregistered, hread⟩ := hs.events _ hevent
  rw [hc] at hd
  cases hd
  exact ⟨hnodup, c', conns_setConns_self, hio.trans hdio, hregistered.trans hdregistered,
    fun h => hcare (hread h)⟩

theorem LoopInv.queueInLoop {tasks : List ServerTask} {k : ℕ} (hs : s.LoopInv k) :
    (s.queueInLoop l tasks).LoopInv k :=
  ⟨by rw [events_queueInLoop]; exact hs.nodup,
    fun event hevent => hs.events event (by rwa [events_queueInLoop] at hevent)⟩

/-! ## The stages -/

theorem Stage.Allows.setConn (hallows : stage.Allows c.history) (conn : TcpConnection)
    (hlast : c.history.getLast? = some c.conn.state)
    (hstate : conn.state = c.conn.state ∨
      (c.conn.state = .connected ∧ conn.state = .disconnecting)) :
    stage.Allows (c.setConn conn).history ∧
      (c.setConn conn).history.getLast? = some conn.state := by
  unfold ServerConn.setConn
  rcases hstate with hsame | ⟨hbefore, hafter⟩
  · simp only [if_pos hsame]
    exact ⟨hallows, by rw [hlast, hsame]⟩
  · rw [hbefore] at hlast
    simp only [hbefore, hafter, if_neg (show ConnState.disconnecting ≠ .connected by decide)]
    refine ⟨?_, by simp⟩
    cases stage with
    | accepted =>
        rw [show c.history = [.connecting] from hallows] at hlast
        cases hlast
    | live | closing | removed =>
        rcases hallows with h | h <;> rw [h] at hlast ⊢
        · exact Or.inr rfl
        · cases hlast
    | gone => rcases hallows with h | h <;> rw [h] at hlast <;> cases hlast

/-- An operation that leaves the stage of the connection alone. -/
theorem Inv.setConns {c' : ServerConn} (hs : s.Inv) (hc : s.conns id = some c)
    (hname : c'.name = c.name) (hio : c'.io = c.io) (hregistered : c'.registered = c.registered)
    (hlife : c'.life = c.life) (hcare : c'.conn.careRead = c.conn.careRead)
    (hstate : ∀ stage : Stage, stage.Allows c.history → c.history.getLast? = some c.conn.state →
      stage.Allows c'.history ∧ c'.history.getLast? = some c'.conn.state) :
    (s.setConns id c').Inv := by
  obtain ⟨stage, hconn⟩ := hs.conn hc
  obtain ⟨hallows, hlast⟩ := hstate stage hconn.history hconn.state
  refine Others.inv ((hs.others id).setConns hc hname ?_) stage conns_setConns_self ?_
  · intro l
    exact (hs.loops l).setConns hc hio hregistered fun h => hcare.trans h
  · exact
      { name := hname.trans hconn.name
        io := hio.trans_le hconn.io
        life := hlife.trans hconn.life
        history := hallows
        state := hlast
        careRead := fun h => hconn.careRead (hcare.symm.trans h)
        registered := by rw [hregistered]; exact hconn.registered
        held := by rw [hname]; exact hconn.held
        tasks := fun l => by rw [hio]; exact hconn.tasks l }

/-- Tasks that move no connection on may be queued anywhere. -/
theorem Inv.queueInLoop {tasks : List ServerTask} (hs : s.Inv)
    (htasks : ∀ task ∈ tasks, task.lifecycle = false) : (s.queueInLoop l tasks).Inv := by
  have hsame : ∀ k j, (s.queueInLoop l tasks).lifeTasks k j = s.lifeTasks k j := by
    intro k j
    have hnone : (tasks.filter fun task => task.lifecycle ∧ task.conn = j) = [] := by
      simp only [List.filter_eq_nil_iff, decide_eq_true_eq]
      exact fun task htask h => by simp [htasks task htask] at h
    rw [lifeTasks_queueInLoop, hnone, ite_self, List.append_nil]
  have honly : Only 0 s (s.queueInLoop l tasks) :=
    { Only.refl 0 s with tasks := fun k j _ => hsame k j }
  exact { hs with
    unknown := fun k j hj => (hsame k j).trans (hs.unknown k j hj)
    loops := fun k => (hs.loops k).queueInLoop
    conns := fun j d hj hd => (hs.conns j d hj hd).imp fun _ hconn => hconn.frame honly hj }

theorem Inv.setTcpConnection (hs : s.Inv) (hc : s.conns id = some c) (conn : TcpConnection)
    (hstate : conn.state = c.conn.state ∨
      (c.conn.state = .connected ∧ conn.state = .disconnecting))
    (hcare : conn.careRead = c.conn.careRead) : (s.setTcpConnection id c conn).Inv := by
  refine Inv.queueInLoop (hs.setConns hc rfl rfl rfl rfl hcare ?_) ?_
  · intro stage hallows hlast
    exact Stage.Allows.setConn hallows { conn with queued := [] } hlast hstate
  · simp [ServerTask.lifecycle]

theorem Inv.setUserRefs (hs : s.Inv) (hc : s.conns id = some c) (userRefs : ℕ) :
    (s.setConns id { c with userRefs }).Inv :=
  hs.setConns hc rfl rfl rfl rfl rfl fun _ hallows hlast => ⟨hallows, hlast⟩

/-- Calls in flight and late tasks say nothing about the stages. -/
theorem Inv.setInFlight {inFlight : List ServerTask} (hs : s.Inv) (late : List ServerTask)
    (hinFlight : ∀ task ∈ inFlight, task.lifecycle = false) :
    Inv { s with inFlight, late } :=
  { hs with
    inFlight := hinFlight
    loops := fun l => ⟨(hs.loops l).nodup, (hs.loops l).events⟩
    conns := fun j d hj hd => (hs.conns j d hj hd).imp fun _ hconn => { hconn with } }

/-- The connection is established, by its task or at once. -/
theorem Others.established (hs : s.Others id) (hc : s.conns id = some c)
    (hconn : s.ConnInv id c .accepted fun _ => []) : (s.setConnectionEstablished id).Inv := by
  have hhistory : c.history = [.connecting] := hconn.history
  have hstate : c.conn.state = .connecting := by
    have hlast := hconn.state
    rw [hhistory] at hlast
    exact (Option.some.inj hlast).symm
  simp only [setConnectionEstablished, hc, TcpConnection.setConnectionEstablished, hstate, if_true]
  refine Others.inv (hs.setConns hc rfl ?_) .live conns_setConns_self ?_
  · intro l
    exact (hs.loops l).setConns hc rfl rfl fun _ => rfl
  · exact { hconn with
      life := by simp [ServerConn.record, ServerConn.setConn, hconn.life, Stage.life,
        TcpConnection.isConnected]
      history := by simp [ServerConn.record, ServerConn.setConn, hhistory, hstate, Stage.Allows]
      state := by simp [ServerConn.record, ServerConn.setConn, hhistory, hstate]
      careRead := fun _ => rfl
      registered := hconn.registered.trans (by simp) }

/-- The connection is destroyed, by its task. -/
theorem Others.destroyed (hs : s.Others id) (hc : s.conns id = some c)
    (hconn : s.ConnInv id c .removed fun _ => []) (hevents : (s.loops c.io).events = []) :
    (s.setConnectionDestroyed id).Inv := by
  have hstate : (c.conn.state = .connected ∧ c.history = [.connecting, .connected]) ∨
      (c.conn.state = .disconnecting ∧ c.history = [.connecting, .connected, .disconnecting]) := by
    have hlast := hconn.state
    rcases hconn.history with h | h <;> rw [h] at hlast
    · exact Or.inl ⟨(Option.some.inj hlast).symm, h⟩
    · exact Or.inr ⟨(Option.some.inj hlast).symm, h⟩
  have hassert : c.conn.state = .connected ∨ c.conn.state = .disconnecting :=
    hstate.imp And.left And.left
  simp only [setConnectionDestroyed, hc, TcpConnection.setConnectionDestroyed, if_pos hassert]
  refine Others.inv (hs.setConns hc rfl ?_) .gone conns_setConns_self ?_
  · intro l
    apply (hs.loops l).frame only_setConns rfl
    intro callbacks hevent
    -- The loop of the connection is calling tasks, and no other loop has its events.
    obtain ⟨-, d, hd, hio, -⟩ := (hs.loops l).events _ hevent
    rw [hc] at hd
    cases hd
    rw [← hio, hevents] at hevent
    cases hevent
  · exact { hconn with
      life := by simp [ServerConn.record, ServerConn.setConn, hconn.life, Stage.life,
        TcpConnection.isConnected]
      history := by
        rcases hstate with ⟨h, hh⟩ | ⟨h, hh⟩ <;>
          simp [ServerConn.record, ServerConn.setConn, h, hh, Stage.Allows]
      state := by
        rcases hstate with ⟨h, hh⟩ | ⟨h, hh⟩ <;> simp [ServerConn.record, ServerConn.setConn, h, hh]
      careRead := by simp [ServerConn.record, ServerConn.setConn]
      registered := by simp }

/-! ## Names -/

theorem toDigits_injective {i j : ℕ} (h : Nat.toDigits 10 i = Nat.toDigits 10 j) : i = j := by
  rw [← Nat.ofDigitChars_ten_toDigits (n := i), h, Nat.ofDigitChars_ten_toDigits]

theorem ConnInv.name_inj {i j : ℕ} {d : ServerConn} {other : Stage} {due due' : ℕ → List ServerTask}
    (hc : s.ConnInv i c stage due) (hd : s.ConnInv j d other due') (h : c.name = d.name) :
    i = j := by
  rw [hc.name, hd.name] at h
  exact toDigits_injective (List.append_cancel_left h)

/-- An entry under the name of a connection is the entry of that connection. -/
theorem Others.entry_eq {due : ℕ → List ServerTask} (hs : s.Others id)
    (hconn : s.ConnInv id c stage due) {entry : ConnName × ℕ} (hentry : entry ∈ s.connections)
    (hname : entry.1 = c.name) : entry.2 = id := by
  by_contra hj
  obtain ⟨d, hd, hdname⟩ := hs.entries entry hentry
  obtain ⟨other, hother⟩ := hs.conns _ d hj hd
  exact hj (hother.name_inj hconn (hdname.trans hname))

/-- `erase` finds a held connection once. -/
theorem Others.countP_name {due : ℕ → List ServerTask} (hs : s.Others id)
    (hconn : s.ConnInv id c .closing due) :
    s.connections.countP (fun entry => entry.1 = c.name) = 1 := by
  have hmem : c.name ∈ s.connections.map Prod.fst :=
    List.mem_map.mpr ⟨(c.name, id), hconn.held.mpr trivial, rfl⟩
  have hcount := List.count_eq_one_of_mem hs.keys hmem
  rw [List.count, List.countP_map] at hcount
  rw [← hcount]
  exact List.countP_congr fun entry _ => by simp

theorem Others.removeConnectionInLoop (hs : s.Others id) (hc : s.conns id = some c)
    (hconn : s.ConnInv id c .closing fun _ => []) : (s.removeConnectionInLoop id).Inv := by
  simp only [TcpServer.removeConnectionInLoop, hc, hs.countP_name hconn, if_true]
  set erased : TcpServer :=
    { s with connections := s.connections.filter fun entry => entry.1 ≠ c.name } with herased
  have honlyErased : Only id s erased := by
    refine ⟨rfl, rfl, fun _ _ => rfl, ?_, fun _ _ _ => rfl⟩
    intro name j hj
    rw [herased, List.mem_filter]
    apply and_iff_left_of_imp
    intro hentry
    simp only [decide_eq_true_eq]
    exact fun hname => hj (hs.entry_eq hconn hentry hname)
  have hothers : erased.Others id :=
    hs.frame honlyErased hc hc rfl List.filter_sublist hs.failed rfl rfl rfl
      fun l => ⟨(hs.loops l).nodup, (hs.loops l).events⟩
  have hgone : (c.name, id) ∉ erased.connections := by simp [herased]
  have htask : ∀ task ∈ [ServerTask.destroyed id], task.conn = id := by simp [ServerTask.conn]
  have hrecorded : (erased.setConns id (c.record (.removed 1))).Others id :=
    hothers.setConns hc rfl fun l => (hothers.loops l).setConns hc rfl rfl fun h => h
  refine Others.inv (hrecorded.frame (only_queueInLoop htask) conns_setConns_self
    conns_setConns_self rfl (List.Sublist.refl _) hs.failed rfl rfl rfl
    fun l => (hrecorded.loops l).queueInLoop) .removed conns_setConns_self ?_
  exact { hconn with
    life := by simp [ServerConn.record, hconn.life, Stage.life]
    careRead := fun h => by cases hconn.careRead h
    registered := hconn.registered.trans (by simp)
    held := iff_of_false hgone fun h => h
    tasks := fun l => by
      have hnone : erased.lifeTasks l id = [] := hconn.tasks l
      rw [lifeTasks_queueInLoop, lifeTasks_setConns, hnone]
      simp [Stage.due, ServerTask.lifecycle, ServerTask.conn, ServerConn.record]
      rfl }

/-- A connection that cares for reads is established. -/
theorem Inv.established (hs : s.Inv) (hc : s.conns id = some c) (hcare : c.conn.careRead = true) :
    c.conn.state = .connected ∨ c.conn.state = .disconnecting := by
  obtain ⟨stage, hconn⟩ := hs.conn hc
  obtain rfl := hconn.careRead hcare
  have hlast := hconn.state
  rcases hconn.history with h | h <;> rw [h] at hlast
  · exact Or.inl (Option.some.inj hlast).symm
  · exact Or.inr (Option.some.inj hlast).symm

/-- `HandleClose`, called from the event of a connection that is done with reading. -/
theorem Inv.handleClose (hs : s.Inv) (hc : s.conns id = some c)
    (hcare : c.conn.careRead = true)
    (hread : ∀ l callbacks, (id, callbacks) ∈ (s.loops l).events → .read ∉ callbacks) :
    (s.handleClose id).Inv := by
  obtain ⟨stage, hconn⟩ := hs.conn hc
  obtain rfl := hconn.careRead hcare
  have hassert := hs.established hc hcare
  simp only [TcpServer.handleClose, hc, TcpConnection.handleClose, if_pos hassert]
  set conn : TcpConnection := { c.conn with careRead := false, careWrite := false }
  have hhistory : ((c.setConn conn).record .closed).history = c.history := if_pos rfl
  have hloops : ∀ l, (s.setConns id ((c.setConn conn).record .closed)).LoopInv l := by
    refine fun l => (hs.loops l).frame only_setConns rfl fun callbacks hevent => ?_
    obtain ⟨hnodup, d, hd, hio, hregistered, -⟩ := (hs.loops l).events _ hevent
    rw [hc] at hd
    cases hd
    exact ⟨hnodup, _, conns_setConns_self, hio, hregistered,
      fun h => absurd h (hread l callbacks hevent)⟩
  have hothers : (s.setConns id ((c.setConn conn).record .closed)).Others id :=
    (hs.others id).setConns hc rfl hloops
  have hclosing : (s.setConns id ((c.setConn conn).record .closed)).ConnInv id
      ((c.setConn conn).record .closed) .closing fun _ => [] :=
    { hconn with
      life := by simp [ServerConn.record, ServerConn.setConn, hconn.life, Stage.life]
      history := by rw [hhistory]; exact hconn.history
      state := by rw [hhistory]; exact hconn.state
      careRead := by simp [ServerConn.record, ServerConn.setConn, conn]
      registered := hconn.registered.trans (by simp) }
  unfold removeConnection
  split
  · exact hothers.removeConnectionInLoop conns_setConns_self hclosing
  · have htask : ∀ task ∈ [ServerTask.removeInLoop id], task.conn = id := by simp [ServerTask.conn]
    refine Others.inv (hothers.frame (only_queueInLoop htask) conns_setConns_self
      conns_setConns_self rfl (List.Sublist.refl _) hs.failed rfl rfl rfl
      fun l => (hothers.loops l).queueInLoop) .closing conns_setConns_self ?_
    exact { hclosing with
      tasks := fun l => by
        rw [lifeTasks_queueInLoop, hclosing.tasks]
        simp [Stage.due, ServerTask.lifecycle, ServerTask.conn] }

/-! ## New connections -/

theorem getNextDispatcher_spec (h : s.numThreads ≠ 0 → s.next < s.numThreads) :
    s.getNextDispatcher.1 ≤ s.numThreads ∧
      (s.numThreads ≠ 0 → s.getNextDispatcher.2 < s.numThreads) := by
  unfold getNextDispatcher
  split
  · rename_i hzero
    exact ⟨Nat.zero_le _, fun hne => absurd hzero hne⟩
  · rename_i hne
    exact ⟨h hne, fun _ => Nat.mod_lt _ (Nat.pos_of_ne_zero hne)⟩

/-- The next number is not that of a connection yet. -/
theorem Inv.conns_next (hs : s.Inv) : s.conns (s.connId + 1) = none := by
  rw [← Option.not_isSome_iff_eq_none, hs.known]
  omega

/-- The next name is not in the map yet. -/
theorem Inv.name_fresh (hs : s.Inv) {entry : ConnName × ℕ} (hentry : entry ∈ s.connections) :
    entry.1 ≠ s.name ++ Nat.toDigits 10 (s.connId + 1) := by
  intro heq
  obtain ⟨d, hd, hdname⟩ := hs.entries entry hentry
  obtain ⟨stage, hdconn⟩ := hs.conn hd
  rw [← hdname, hdconn.name] at heq
  rw [toDigits_injective (List.append_cancel_left heq), hs.conns_next] at hd
  cases hd

/-- The server after a connection has been made and put into the map. -/
def accept (s : TcpServer) (next : ℕ) (c : ServerConn) : TcpServer :=
  { s with
    connId := s.connId + 1
    next
    connections := s.connections ++ [(c.name, s.connId + 1)] }.setConns (s.connId + 1) c

theorem Inv.only_accept (next : ℕ) (c : ServerConn) :
    Only (s.connId + 1) s (s.accept next c) :=
  { name := rfl
    numThreads := rfl
    conns := fun j hj => conns_setConns_of_ne hj
    entries := fun name j hj => by
      show (name, j) ∈ s.connections ++ [(c.name, s.connId + 1)] ↔ _
      simp [hj]
    tasks := fun _ _ _ => rfl }

theorem Inv.accept (hs : s.Inv) {next : ℕ} (hnext : s.numThreads ≠ 0 → next < s.numThreads)
    (hname : c.name = s.name ++ Nat.toDigits 10 (s.connId + 1)) :
    (s.accept next c).Others (s.connId + 1) where
  failed := hs.failed
  next := hnext
  known j := by
    by_cases hj : j = s.connId + 1
    · rw [hj, TcpServer.accept, conns_setConns_self]
      simp [TcpServer.setConns]
    · rw [(Inv.only_accept next c).conns j hj, hs.known]
      simp only [TcpServer.accept, TcpServer.setConns]
      omega
  unknown l j hj := by
    have hne : j ≠ s.connId + 1 := by
      rintro rfl
      rw [TcpServer.accept, conns_setConns_self] at hj
      cases hj
    exact hs.unknown l j (by rw [← (Inv.only_accept next c).conns j hne, hj])
  keys := by
    show ((s.connections ++ [(c.name, s.connId + 1)]).map Prod.fst).Nodup
    rw [List.map_append, List.nodup_append]
    refine ⟨hs.keys, List.nodup_singleton _, ?_⟩
    rintro name hmem last hlast rfl
    obtain ⟨entry, hentry, rfl⟩ := List.mem_map.mp hmem
    exact hs.name_fresh hentry ((List.mem_singleton.mp hlast).trans hname)
  entries entry hentry := by
    rcases List.mem_append.mp hentry with hold | hlast
    · obtain ⟨d, hd, hdname⟩ := hs.entries entry hold
      have hne : entry.2 ≠ s.connId + 1 := by
        intro heq
        rw [heq, hs.conns_next] at hd
        cases hd
      exact ⟨d, by rw [(Inv.only_accept next c).conns _ hne, hd], hdname⟩
    · obtain rfl := List.mem_singleton.mp hlast
      exact ⟨c, conns_setConns_self, rfl⟩
  loops l := (hs.loops l).frame (Inv.only_accept next c) rfl fun callbacks hevent => by
    obtain ⟨-, d, hd, -⟩ := (hs.loops l).events _ hevent
    rw [hs.conns_next] at hd
    cases hd
  inFlight := hs.inFlight
  conns j d hj hd := by
    obtain ⟨stage, hconn⟩ := hs.conn (by rw [← (Inv.only_accept next c).conns j hj, hd])
    exact ⟨stage, hconn.frame (Inv.only_accept next c) hj⟩

/-- The connection that `NewConnection` makes. -/
def newConn (s : TcpServer) : ServerConn where
  name := s.name ++ Nat.toDigits 10 (s.connId + 1)
  io := s.getNextDispatcher.1
  conn := .new (64 * 1024 * 1024) s.hasWriteCompleteCallback false
  registered := true
  userRefs := 0
  history := [.connecting]
  life := []

/-- `insert` always inserts. -/
theorem Inv.newConnection_eq (hs : s.Inv) :
    s.newConnection =
      if s.newConn.io = 0 then
        (s.accept s.getNextDispatcher.2 s.newConn).setConnectionEstablished (s.connId + 1)
      else
        (s.accept s.getNextDispatcher.2 s.newConn).queueInLoop s.newConn.io
          [.established (s.connId + 1)] := by
  have habsent : ¬ s.connections.any fun entry =>
      entry.1 = s.name ++ Nat.toDigits 10 (s.connId + 1) := by
    intro hany
    obtain ⟨entry, hentry, heq⟩ := List.any_eq_true.mp hany
    exact hs.name_fresh hentry (of_decide_eq_true heq)
  simp only [TcpServer.newConnection, if_neg habsent]
  rfl

theorem Inv.newConnection (hs : s.Inv) : s.newConnection.Inv := by
  obtain ⟨hio, hnext⟩ := getNextDispatcher_spec hs.next
  have hothers := hs.accept (c := s.newConn) hnext rfl
  have hself : (s.accept s.getNextDispatcher.2 s.newConn).conns (s.connId + 1) = some s.newConn :=
    conns_setConns_self
  have hconn : (s.accept s.getNextDispatcher.2 s.newConn).ConnInv (s.connId + 1) s.newConn .accepted
      fun _ => [] :=
    { name := rfl
      io := hio
      life := rfl
      history := rfl
      state := rfl
      careRead := nofun
      registered := by simp [newConn]
      held := iff_of_true (List.mem_append_right _ (List.mem_singleton_self _)) trivial
      tasks := fun l => hs.unknown l _ hs.conns_next }
  rw [hs.newConnection_eq]
  split
  · exact hothers.established hself hconn
  · have htask : ∀ task ∈ [ServerTask.established (s.connId + 1)], task.conn = s.connId + 1 := by
      simp [ServerTask.conn]
    refine Others.inv (hothers.frame (only_queueInLoop htask) hself hself rfl
      (List.Sublist.refl _) hs.failed rfl rfl rfl fun l => (hothers.loops l).queueInLoop) .accepted
      hself ?_
    exact { hconn with
      tasks := fun l => by
        rw [lifeTasks_queueInLoop, hconn.tasks]
        simp [Stage.due, ServerTask.lifecycle, ServerTask.conn] }

/-! ## Loops -/

theorem waiting_setLoop {loop : ServerLoop} (k : ℕ) :
    ((s.setLoop l loop).loops k).waiting =
      if k = l then loop.waiting else (s.loops k).waiting := by
  split
  · rename_i hk
    rw [hk, loops_setLoop_self]
  · rename_i hk
    rw [loops_setLoop_of_ne hk]

theorem LoopInv.setLoop {loop : ServerLoop} (hs : ∀ k, s.LoopInv k)
    (hnodup : (loop.events.map Prod.fst).Nodup)
    (hevents : ∀ event ∈ loop.events, s.EventInv l event) (k : ℕ) :
    (s.setLoop l loop).LoopInv k := by
  by_cases hk : k = l
  · rw [hk]
    exact ⟨by rwa [loops_setLoop_self], by rwa [loops_setLoop_self]⟩
  · exact ⟨by rw [loops_setLoop_of_ne hk]; exact (hs k).nodup,
      by rw [loops_setLoop_of_ne hk]; exact (hs k).events⟩

theorem lifeTasks_setLoop {loop : ServerLoop} (k j : ℕ) :
    (s.setLoop l loop).lifeTasks k j =
      if k = l then loop.waiting.filter fun task => task.lifecycle ∧ task.conn = j
      else s.lifeTasks k j := by
  unfold lifeTasks
  rw [waiting_setLoop]
  split <;> rfl

theorem Others.setLoop {loop : ServerLoop} (hs : s.Inv) (honly : Only id s (s.setLoop l loop))
    (hunknown : ∀ k j, s.conns j = none → (s.setLoop l loop).lifeTasks k j = [])
    (hnodup : (loop.events.map Prod.fst).Nodup)
    (hevents : ∀ event ∈ loop.events, s.EventInv l event) : (s.setLoop l loop).Others id :=
  { hs with
    unknown := hunknown
    loops := LoopInv.setLoop hs.loops hnodup hevents
    conns := fun j d hj hd => by
      obtain ⟨stage, hconn⟩ := hs.conn hd
      exact ⟨stage, hconn.frame honly hj⟩ }

/-- A loop goes on without running a task. -/
theorem Inv.setLoop {loop : ServerLoop} (hs : s.Inv) (hwaiting : loop.waiting = (s.loops l).waiting)
    (hnodup : (loop.events.map Prod.fst).Nodup)
    (hevents : ∀ event ∈ loop.events, s.EventInv l event) : (s.setLoop l loop).Inv := by
  have htasks : ∀ k j, (s.setLoop l loop).lifeTasks k j = s.lifeTasks k j := by
    intro k j
    rw [lifeTasks_setLoop, hwaiting]
    split
    · rename_i hk
      rw [hk]
      rfl
    · rfl
  exact Others.setLoop hs { Only.refl 0 s with tasks := fun k j _ => htasks k j }
    (fun k j hj => (htasks k j).trans (hs.unknown k j hj)) hnodup hevents

/-- A task that is no lifecycle task leaves its loop. -/
theorem Inv.pop {loop : ServerLoop} {task : ServerTask} (hs : s.Inv)
    (hwaiting : (s.loops l).waiting = task :: loop.waiting) (hevents : loop.events = [])
    (htask : task.lifecycle = false) : (s.setLoop l loop).Inv := by
  have htasks : ∀ k j, (s.setLoop l loop).lifeTasks k j = s.lifeTasks k j := by
    intro k j
    rw [lifeTasks_setLoop]
    split
    · rename_i hk
      rw [hk, lifeTasks, hwaiting, List.filter_cons_of_neg (by simp [htask])]
    · rfl
  exact Others.setLoop hs { Only.refl 0 s with tasks := fun k j _ => htasks k j }
    (fun k j hj => (htasks k j).trans (hs.unknown k j hj)) (by simp [hevents]) (by simp [hevents])

/-- At most one lifecycle task is due. -/
theorem Stage.due_eq_of_mem {io k : ℕ} {task : ServerTask} (h : task ∈ stage.due io id l) :
    stage.due io id k = if k = l then [task] else [] := by
  cases stage <;> simp only [Stage.due] at h ⊢ <;> first | (split at h <;> simp_all) | simp at h

/-- A lifecycle task leaves its loop, and nothing more is due for its connection. -/
theorem Inv.popDue {loop : ServerLoop} {task : ServerTask} (hs : s.Inv)
    (hwaiting : (s.loops l).waiting = task :: loop.waiting) (hevents : loop.events = [])
    (htask : task.lifecycle = true) :
    ∃ c stage, s.conns task.conn = some c ∧ task ∈ stage.due c.io task.conn l ∧
      (s.setLoop l loop).Others task.conn ∧
        (s.setLoop l loop).ConnInv task.conn c stage fun _ => [] := by
  have hmem : task ∈ s.lifeTasks l task.conn := by
    simp [lifeTasks, hwaiting, htask]
  obtain ⟨c, hc⟩ : ∃ c, s.conns task.conn = some c := by
    rw [← Option.ne_none_iff_exists']
    intro hnone
    rw [hs.unknown l _ hnone] at hmem
    cases hmem
  obtain ⟨stage, hconn⟩ := hs.conn hc
  rw [hconn.tasks] at hmem
  have hrest : ∀ k, (s.setLoop l loop).lifeTasks k task.conn = [] := by
    intro k
    have hbefore := hconn.tasks k
    rw [Stage.due_eq_of_mem hmem] at hbefore
    rw [lifeTasks_setLoop]
    split
    · rename_i hk
      rw [if_pos hk, hk, lifeTasks, hwaiting, List.filter_cons_of_pos (by simp [htask])] at hbefore
      exact (List.cons.inj hbefore).2
    · rename_i hk
      rw [hbefore, if_neg hk]
  have hothers : ∀ k j, j ≠ task.conn → (s.setLoop l loop).lifeTasks k j = s.lifeTasks k j := by
    intro k j hj
    rw [lifeTasks_setLoop]
    split
    · rename_i hk
      rw [hk, lifeTasks, hwaiting, List.filter_cons_of_neg (by simp [hj.symm])]
    · rfl
  have honly : Only task.conn s (s.setLoop l loop) :=
    { Only.refl task.conn s with tasks := fun k j hj => hothers k j hj }
  refine ⟨c, stage, hc, hmem, Others.setLoop hs honly ?_ (by simp [hevents])
    (by simp [hevents]), { hconn with tasks := hrest }⟩
  intro k j hj
  have hne : j ≠ task.conn := by
    rintro rfl
    rw [hc] at hj
    cases hj
  rw [hothers k j hne, hs.unknown k j hj]

/-! ## Steps -/

theorem nodup_callbacks (revents : Revents) : revents.callbacks.Nodup := by
  obtain ⟨epollIn, epollPri, epollRdHup, epollOut, epollErr, epollHup⟩ := revents
  cases epollIn <;> cases epollPri <;> cases epollRdHup <;> cases epollOut <;> cases epollErr <;>
    cases epollHup <;> decide

/-- A read callback is called only for events the connection cares for. -/
theorem careRead_of_read_mem {revents : Revents} {conn : TcpConnection}
    (hreport : revents.Reportable conn) (hread : .read ∈ revents.callbacks) :
    conn.careRead = true := by
  obtain ⟨hin, hrdhup, -⟩ := hreport
  apply hin
  by_contra hneither
  simp only [not_or, Bool.not_eq_true] at hneither
  simp [Revents.callbacks, hneither, hrdhup] at hread

theorem eventInv_of_reports {event : ℕ × Revents} (h : s.reports l event = true) :
    s.EventInv l (event.1, event.2.callbacks) := by
  unfold reports at h
  split at h
  · rename_i c hc
    simp only [decide_eq_true_eq] at h
    exact ⟨nodup_callbacks _, c, hc, h.1, h.2.1, fun hread => careRead_of_read_mem h.2.2 hread⟩
  · cases h

theorem Inv.runRaw {task : ServerTask} (hs : s.Inv) (op : TcpConnection → TcpConnection)
    (hstate : ∀ conn, (op conn).state = conn.state)
    (hcare : ∀ conn, (op conn).careRead = conn.careRead) : (s.runRaw task op).Inv := by
  unfold TcpServer.runRaw
  split
  · rename_i c hc
    split
    · exact hs.setInFlight _ hs.inFlight
    · have hran := hs.setTcpConnection hc (op c.conn) (Or.inl (hstate _)) (hcare _)
      split
      · exact hran.setInFlight _ hran.inFlight
      · exact hran
  · exact hs.setInFlight _ hs.inFlight

/-- A callback of a handler in the epoll batch, which has already been taken off
the callbacks of its event. -/
theorem Inv.runCallback {callback : EventCallback} {read : Buffer.ReadResult} {write : WriteResult}
    (hs : s.Inv) (hc : s.conns id = some c) (hwrite : write.Fits c.conn.outputBuf.payloadSize)
    (hcare : callback = .read → c.conn.careRead = true)
    (hread : callback = .read →
      ∀ k callbacks, (id, callbacks) ∈ (s.loops k).events → .read ∉ callbacks) :
    (s.runCallback id c read write callback).Inv := by
  have hwritten : ∀ conn, c.conn.handleWrite write = some conn →
      (s.setTcpConnection id c conn).Inv := fun conn hconn =>
    hs.setTcpConnection hc conn (Or.inl (TcpConnection.state_handleWrite hwrite hconn))
      (TcpConnection.careRead_handleWrite hwrite hconn)
  obtain ⟨conn, hconn⟩ := Option.isSome_iff_exists.mp (TcpConnection.isSome_handleWrite hwrite)
  cases callback with
  | close | error | write =>
      simp only [TcpServer.runCallback, hconn]
      exact hwritten conn hconn
  | read =>
      have hreceived := hs.setTcpConnection hc (c.conn.handleRead read) (Or.inl rfl) rfl
      simp only [TcpServer.runCallback]
      split
      · refine hreceived.handleClose (c := c.setConn { c.conn.handleRead read with queued := [] })
          conns_setConns_self (hcare rfl) ?_
        intro k callbacks hevent
        apply hread rfl k callbacks
        rwa [TcpServer.setTcpConnection, events_queueInLoop] at hevent
      · exact hreceived

theorem Inv.runTask {task : ServerTask} {batch spent : List ServerTask} {write : WriteResult}
    (hs : s.Inv) (hphase : (s.loops l).phase = .calling (task :: batch) spent)
    (hfits : TaskFits write task) :
    ((s.setLoop l { s.loops l with phase := .calling batch (spent ++ [task]) }).runTask write
      task).Inv := by
  set loop : ServerLoop := { s.loops l with phase := .calling batch (spent ++ [task]) }
  have hwaiting : (s.loops l).waiting = task :: loop.waiting := by
    simp [ServerLoop.waiting, hphase, loop]
  have hevents : loop.events = [] := rfl
  cases task with
  | established id =>
      obtain ⟨c, stage, hc, hdue, hothers, hconn⟩ := hs.popDue hwaiting hevents rfl
      cases stage <;> simp [Stage.due] at hdue
      exact hothers.established hc hconn
  | removeInLoop id =>
      obtain ⟨c, stage, hc, hdue, hothers, hconn⟩ := hs.popDue hwaiting hevents rfl
      cases stage <;> simp [Stage.due] at hdue
      exact hothers.removeConnectionInLoop hc hconn
  | destroyed id =>
      obtain ⟨c, stage, hc, hdue, hothers, hconn⟩ := hs.popDue hwaiting hevents rfl
      cases stage <;> simp [Stage.due] at hdue
      apply hothers.destroyed hc hconn
      rw [← hdue.1, loops_setLoop_self]
      rfl
  | callback id callback => exact hs.pop hwaiting hevents rfl
  | sendInLoop id data =>
      have hr : write.Fits data.length := hfits
      exact (hs.pop hwaiting hevents rfl).runRaw (fun conn => conn.sendInLoop write data)
        (fun _ => TcpConnection.state_sendInLoop hr) fun _ => TcpConnection.careRead_sendInLoop hr
  | shutDownInLoop id =>
      exact (hs.pop hwaiting hevents rfl).runRaw TcpConnection.shutDownInLoop
        (fun _ => TcpConnection.state_shutDownInLoop) fun _ => TcpConnection.careRead_shutDownInLoop

/-- The event at the head of a batch is called back. -/
theorem Inv.handleEvent {callback : EventCallback} {callbacks : List EventCallback}
    {ready : List (ℕ × Revents)} {read : Buffer.ReadResult} {write : WriteResult} (hs : s.Inv)
    (hphase : (s.loops l).phase = .handling (some (id, callback :: callbacks)) ready)
    (hc : s.conns id = some c) (hwrite : write.Fits c.conn.outputBuf.payloadSize) :
    ((s.setLoop l { s.loops l with phase := .handling (some (id, callbacks)) ready }).runCallback
      id c read write callback).Inv := by
  set loop : ServerLoop := { s.loops l with phase := .handling (some (id, callbacks)) ready }
  have hbefore : (s.loops l).events = (id, callback :: callbacks) ::
      ready.map fun event => (event.1, event.2.callbacks) := by
    simp [ServerLoop.events, hphase]
  have hafter : loop.events = (id, callbacks) ::
      ready.map fun event => (event.1, event.2.callbacks) := rfl
  have hnodup := (hs.loops l).nodup
  obtain ⟨hcallbacks, d, hd, hio, hregistered, hread⟩ :=
    (hs.loops l).events (id, callback :: callbacks) (by simp [hbefore])
  rw [hc] at hd
  cases hd
  have hset : (s.setLoop l loop).Inv := by
    refine hs.setLoop (by simp [ServerLoop.waiting, hphase, loop]) ?_ ?_
    · rw [hbefore] at hnodup
      rw [hafter]
      exact hnodup
    · intro event hevent
      rw [hafter] at hevent
      rcases List.mem_cons.mp hevent with rfl | hrest
      · exact ⟨(List.nodup_cons.mp hcallbacks).2, c, hc, hio, hregistered,
          fun h => hread (List.mem_cons_of_mem _ h)⟩
      · exact (hs.loops l).events event (by rw [hbefore]; exact List.mem_cons_of_mem _ hrest)
  apply hset.runCallback hc hwrite (fun h => hread (by simp [h]))
  intro hcallback k other hother
  -- No other event of any loop is about this connection.
  obtain ⟨-, d, hd, hk, -⟩ := (hset.loops k).events _ hother
  replace hd : s.conns id = some d := hd
  rw [hc] at hd
  cases hd
  obtain rfl : k = l := hk.symm.trans hio
  rw [loops_setLoop_self, hafter] at hother
  rw [hbefore, List.map_cons, List.nodup_cons] at hnodup
  rcases List.mem_cons.mp hother with hsame | hrest
  · obtain ⟨-, rfl⟩ := Prod.mk.inj hsame
    exact hcallback ▸ (List.nodup_cons.mp hcallbacks).1
  · exact absurd (List.mem_map_of_mem hrest) hnodup.1

theorem Inv.stepLoop {action : ServerAction} (hs : s.Inv) (hstep : s.stepLoop l action = some t) :
    t.Inv := by
  cases action with
  | newConnection =>
      simp only [TcpServer.stepLoop] at hstep
      split at hstep
      · split at hstep <;> cases hstep
        exact hs.newConnection
      · cases hstep
  | select k ready =>
      simp only [TcpServer.stepLoop] at hstep
      split at hstep
      · rename_i hphase
        split at hstep <;> cases hstep
        rename_i hguard
        refine hs.setLoop (by simp [ServerLoop.waiting, hphase]) ?_ ?_
        · simpa [ServerLoop.events, Function.comp_def] using hguard.1
        · intro event hevent
          simp only [ServerLoop.events, Option.toList_none, List.nil_append, List.mem_map] at hevent
          obtain ⟨reported, hmem, rfl⟩ := hevent
          exact eventInv_of_reports (List.all_eq_true.mp hguard.2 reported hmem)
      · cases hstep
  | startEvent k =>
      simp only [TcpServer.stepLoop] at hstep
      split at hstep
      · rename_i id revents ready hphase
        cases hstep
        have hevents : ({ s.loops l with phase := .handling (some (id, revents.callbacks)) ready } :
            ServerLoop).events = (s.loops l).events := by
          simp [ServerLoop.events, hphase]
        exact hs.setLoop (by simp [ServerLoop.waiting, hphase]) (hevents ▸ (hs.loops l).nodup)
          (hevents ▸ (hs.loops l).events)
      · cases hstep
  | handleEvent k read write =>
      simp only [TcpServer.stepLoop] at hstep
      split at hstep
      · split at hstep
        · split at hstep <;> cases hstep
          exact hs.handleEvent ‹_› ‹_› ‹_›
        · cases hstep
      · cases hstep
  | finishEvent k =>
      simp only [TcpServer.stepLoop] at hstep
      split at hstep
      · rename_i id ready hphase
        cases hstep
        have hevents : (s.loops l).events = (id, []) ::
            ({ s.loops l with phase := .handling none ready } : ServerLoop).events := by
          simp [ServerLoop.events, hphase]
        have hnodup := (hs.loops l).nodup
        rw [hevents, List.map_cons, List.nodup_cons] at hnodup
        exact hs.setLoop (by simp [ServerLoop.waiting, hphase]) hnodup.2
          fun event hevent => (hs.loops l).events event (hevents ▸ List.mem_cons_of_mem _ hevent)
      · cases hstep
  | swapPendingFuncs k =>
      simp only [TcpServer.stepLoop] at hstep
      split at hstep
      · rename_i hphase
        cases hstep
        exact hs.setLoop (by simp [ServerLoop.waiting, hphase]) (by simp [ServerLoop.events])
          (by simp [ServerLoop.events])
      · cases hstep
  | runTask k write =>
      simp only [TcpServer.stepLoop] at hstep
      split at hstep
      · split at hstep <;> cases hstep
        exact hs.runTask ‹_› ‹_›
      · cases hstep
  | finishPendingFuncs k =>
      simp only [TcpServer.stepLoop] at hstep
      split at hstep
      · rename_i hphase
        cases hstep
        exact hs.setLoop (by simp [ServerLoop.waiting, hphase]) (by simp [ServerLoop.events])
          (by simp [ServerLoop.events])
      · cases hstep
  | _ => cases hstep

theorem Inv.stepUser {action : ServerAction} (hs : s.Inv) (hc : s.conns id = some c)
    (hstep : s.stepUser id c action = some t) : t.Inv := by
  cases action with
  | acquire j =>
      simp only [TcpServer.stepUser] at hstep
      split at hstep <;> cases hstep
      exact hs.setUserRefs hc _
  | drop j =>
      simp only [TcpServer.stepUser] at hstep
      split at hstep <;> cases hstep
      exact hs.setUserRefs hc _
  | callSend j data =>
      simp only [TcpServer.stepUser] at hstep
      split at hstep
      · split at hstep <;> cases hstep
        · apply (hs.setUserRefs hc _).setInFlight s.late
          intro task htask
          rcases List.mem_append.mp htask with hold | hnew
          · exact hs.inFlight task hold
          · rw [List.mem_singleton.mp hnew]
            rfl
        · exact hs
      · cases hstep
  | callShutDown j =>
      simp only [TcpServer.stepUser] at hstep
      split at hstep
      · split at hstep <;> cases hstep
        · rename_i hconnected
          refine Inv.setInFlight ?_ s.late ?_
          · refine Inv.setConns hs hc rfl rfl rfl rfl rfl ?_
            intro stage hallows hlast
            exact Stage.Allows.setConn hallows { c.conn with state := .disconnecting } hlast
              (Or.inr ⟨hconnected, rfl⟩)
          · intro task htask
            rcases List.mem_append.mp htask with hold | hnew
            · exact hs.inFlight task hold
            · rw [List.mem_singleton.mp hnew]
              rfl
        · exact hs
      · cases hstep
  | queueCall task =>
      simp only [TcpServer.stepUser] at hstep
      split at hstep <;> cases hstep
      rename_i htask
      have herased : Inv { s with inFlight := s.inFlight.erase task, late := s.late } :=
        hs.setInFlight s.late fun other hother => hs.inFlight other (List.mem_of_mem_erase hother)
      apply (herased.setUserRefs hc _).queueInLoop
      intro other hother
      rw [List.mem_singleton.mp hother]
      exact hs.inFlight task htask
  | send j write data =>
      simp only [TcpServer.stepUser] at hstep
      split at hstep <;> cases hstep
      rename_i hguard
      exact hs.setTcpConnection hc _ (Or.inl (TcpConnection.state_send hguard.2))
        (TcpConnection.careRead_send hguard.2)
  | shutDown j =>
      simp only [TcpServer.stepUser] at hstep
      split at hstep <;> cases hstep
      exact hs.setTcpConnection hc _ TcpConnection.state_shutDown TcpConnection.careRead_shutDown
  | _ => cases hstep

theorem Inv.step {action : ServerAction} (hs : s.Inv) (hstep : s.step action = some t) : t.Inv := by
  unfold TcpServer.step at hstep
  rw [if_neg (by simp [hs.failed])] at hstep
  cases action with
  | newConnection => exact hs.stepLoop hstep
  | select l _ | startEvent l | handleEvent l _ _ | finishEvent l | swapPendingFuncs l
  | runTask l _ | finishPendingFuncs l =>
      dsimp only at hstep
      split at hstep
      · exact hs.stepLoop hstep
      · cases hstep
  | acquire id | drop id | callSend id _ | callShutDown id | send id _ _ | shutDown id
  | queueCall task =>
      obtain ⟨c, hc, huser⟩ := Option.bind_eq_some_iff.mp hstep
      exact hs.stepUser hc huser

end TcpServer

end YxAlpha
