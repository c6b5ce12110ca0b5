import YxAlpha.Net.ServerInvariant

/-!
# The life of a connection

What the invariant says about every run of a server, for any number of I/O loops
and any interleaving: the stages of a connection, its entry in the map and the
assertions on the way (`lifecycle`), and that no handler in an epoll batch
belongs to a connection without references (`handlers_alive`).

References matter between the stages only: up to `closing` the map holds one, in
`removed` the task that destroys the connection does, and in `gone` the fd is out
of the selector.
-/

namespace YxAlpha

namespace TcpServer

variable {s : TcpServer} {id : ℕ} {c : ServerConn} {stage : Stage}

/-! ## Stages -/

structure Lifecycle (s : TcpServer) : Prop where
  /-- No assertion has failed. -/
  asserts : s.failed = false
  /-- The names of connections are distinct. -/
  distinct : ∀ i j c d, s.conns i = some c → s.conns j = some d → c.name = d.name → i = j
  /-- A connection is in the map under its name until `RemoveConnectionInLoop`. -/
  held : ∀ id c, s.conns id = some c → ((c.name, id) ∈ s.connections ↔ ¬ c.Removed)
  /-- Nothing else is in the map. -/
  entries : ∀ entry ∈ s.connections, ∃ c, s.conns entry.2 = some c ∧ c.name = entry.1
  /-- Each of these happens at most once and in this order: the connection is
  established, with the callback seeing it connected; `HandleClose`; `erase`, which
  returns 1; the connection is destroyed, with the callback seeing it not
  connected. -/
  life : ∀ id c, s.conns id = some c →
    c.life <+: [.established true, .closed, .removed 1, .destroyed false]
  /-- The state only moves forward. -/
  history : ∀ id c, s.conns id = some c →
    (c.history <+: [.connecting, .connected, .disconnected] ∨
      c.history <+: [.connecting, .connected, .disconnecting, .disconnected]) ∧
    c.history.getLast? = some c.conn.state

theorem Stage.life_prefix (stage : Stage) : stage.life <+: Stage.gone.life := by
  cases stage <;> decide

theorem Stage.removed_mem_life (stage : Stage) :
    (∃ ret, LifeEvent.removed ret ∈ stage.life) ↔ ¬ stage.Held := by
  cases stage <;> simp [Stage.life, Stage.Held]

theorem Stage.Allows.forward {history : List ConnState} (h : stage.Allows history) :
    history <+: [.connecting, .connected, .disconnected] ∨
      history <+: [.connecting, .connected, .disconnecting, .disconnected] := by
  cases stage with
  | accepted =>
      obtain rfl : history = _ := h
      exact Or.inl (by decide)
  | live | closing | removed =>
      rcases h with rfl | rfl
      · exact Or.inl (by decide)
      · exact Or.inr (by decide)
  | gone =>
      rcases h with rfl | rfl
      · exact Or.inl (by decide)
      · exact Or.inr (by decide)

theorem Inv.toLifecycle (hs : s.Inv) : s.Lifecycle where
  asserts := hs.failed
  distinct i j c d hc hd hname := by
    obtain ⟨_, hci⟩ := hs.conn hc
    obtain ⟨_, hdj⟩ := hs.conn hd
    exact hci.name_inj hdj hname
  held id c hc := by
    obtain ⟨stage, hconn⟩ := hs.conn hc
    rw [hconn.held, ServerConn.Removed, hconn.life, Stage.removed_mem_life, not_not]
  entries := hs.entries
  life id c hc := by
    obtain ⟨stage, hconn⟩ := hs.conn hc
    rw [hconn.life]
    exact Stage.life_prefix stage
  history id c hc := by
    obtain ⟨stage, hconn⟩ := hs.conn hc
    exact ⟨Stage.Allows.forward hconn.history, hconn.state⟩

/-- **The life of a connection.**  Every run of a server, with any number of I/O
loops, keeps every connection in its life cycle. -/
theorem lifecycle (name : ConnName) (numThreads : ℕ) (hasWriteComplete : Bool)
    (actions : List ServerAction) :
    (machine name numThreads hasWriteComplete).Throughout Lifecycle
      (machine name numThreads hasWriteComplete).init actions :=
  (Machine.throughout_of_invariant (I := Inv) (fun _ _ _ hs hstep => Inv.step hs hstep)
    (inv_new name numThreads hasWriteComplete) actions).mono fun _ hs => hs.toLifecycle

/-! ## References -/

theorem mem_tasks_of_mem_waiting {loop : ServerLoop} {task : ServerTask}
    (h : task ∈ loop.waiting) : task ∈ loop.tasks := by
  unfold ServerLoop.waiting at h
  unfold ServerLoop.tasks
  split at h <;> simp_all

theorem strongRefs_pos_of_held (h : (c.name, id) ∈ s.connections) : 0 < s.strongRefs id := by
  have hcount : 0 < s.connections.countP fun entry => entry.2 = id :=
    List.countP_pos_iff.mpr ⟨_, h, by simp⟩
  unfold strongRefs
  omega

theorem strongRefs_pos_of_task {l : ℕ} (hl : l ≤ s.numThreads) {task : ServerTask}
    (htask : task ∈ (s.loops l).tasks) (hholds : task.Holds id) : 0 < s.strongRefs id := by
  have hcount : 0 < (s.loops l).tasks.countP fun task => task.Holds id :=
    List.countP_pos_iff.mpr ⟨task, htask, by simpa using hholds⟩
  have hsum : 0 < ((List.range (s.numThreads + 1)).map fun l =>
      (s.loops l).tasks.countP fun task => task.Holds id).sum :=
    List.sum_pos_iff_exists_pos_nat.mpr
      ⟨_, List.mem_map_of_mem (List.mem_range.mpr (Nat.lt_succ_of_le hl)), hcount⟩
  unfold strongRefs
  omega

/-- A connection in the selector is referenced. -/
theorem ConnInv.strongRefs_pos (hc : s.ConnInv id c stage fun l => stage.due c.io id l)
    (hstage : stage ≠ .gone) : 0 < s.strongRefs id := by
  cases stage with
  | accepted | live | closing => exact strongRefs_pos_of_held (hc.held.mpr trivial)
  | removed =>
      have hmem : ServerTask.destroyed id ∈ s.lifeTasks c.io id := by
        rw [hc.tasks]
        simp [Stage.due]
      exact strongRefs_pos_of_task hc.io (mem_tasks_of_mem_waiting (List.mem_of_mem_filter hmem))
        ⟨rfl, rfl⟩
  | gone => exact absurd rfl hstage

theorem Inv.strongRefs_pos (hs : s.Inv) (hc : s.conns id = some c)
    (hregistered : c.registered = true) :
    0 < s.strongRefs id := by
  obtain ⟨stage, hconn⟩ := hs.conn hc
  exact hconn.strongRefs_pos (hconn.registered.mp hregistered)

structure HandlersAlive (s : TcpServer) : Prop where
  /-- The handlers in an epoll batch belong to connections with references. -/
  batch : ∀ l, ∀ event ∈ (s.loops l).events, 0 < s.strongRefs event.1
  /-- A connection inside its `HandleEvent` is not destroyed. -/
  handling : ∀ l id callbacks ready,
    (s.loops l).phase = .handling (some (id, callbacks)) ready → 0 < s.strongRefs id
  /-- The last reference is gone only when the fd is out of the selector. -/
  released : ∀ id c, s.conns id = some c → s.strongRefs id = 0 → c.registered = false

theorem Inv.handlersAlive (hs : s.Inv) : s.HandlersAlive := by
  have hbatch : ∀ l, ∀ event ∈ (s.loops l).events, 0 < s.strongRefs event.1 := by
    intro l event hevent
    obtain ⟨-, c, hc, -, hregistered, -⟩ := (hs.loops l).events event hevent
    exact hs.strongRefs_pos hc hregistered
  refine ⟨hbatch, ?_, ?_⟩
  · intro l id callbacks ready hphase
    exact hbatch l (id, callbacks) (by simp [ServerLoop.events, hphase])
  · intro id c hc hzero
    by_contra hregistered
    have := hs.strongRefs_pos hc (by simpa using hregistered)
    omega

/-- **No event reaches a freed handler**, in any run of a server. -/
theorem handlers_alive (name : ConnName) (numThreads : ℕ) (hasWriteComplete : Bool)
    (actions : List ServerAction) :
    (machine name numThreads hasWriteComplete).Throughout HandlersAlive
      (machine name numThreads hasWriteComplete).init actions :=
  (Machine.throughout_of_invariant (I := Inv) (fun _ _ _ hs hstep => Inv.step hs hstep)
    (inv_new name numThreads hasWriteComplete) actions).mono fun _ hs => hs.handlersAlive

end TcpServer

end YxAlpha
