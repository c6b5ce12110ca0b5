import YxAlpha.Library.Machine
import YxAlpha.Net.TcpServer
import YxAlpha.Reactor.DispatcherPool

/-!
# Connections over the I/O loops

`TcpServer::Start` starts the pool the first time it is called, and never again.  So the pool
has as many loops as `SetThreadNum` said, whatever else is called, and gives the connections to
them in turn: any number of connections in a row is spread as evenly as it can be
(`connections_balanced`).

The server of `Net/TcpServer.lean`, which has been started, takes the loops of this pool
(`getNextDispatcher_eq`).
-/

namespace YxAlpha

/-- What `TcpServer` knows about its loops. -/
structure PooledServer where
  started : Bool
  pool : DispatcherPool
  /-- All that `get_next_dispatcher` has returned. -/
  returned : List ℕ

/-- The calls behind the first `Start`. -/
inductive PoolCall
  | start
  | getNextDispatcher
  deriving DecidableEq, Repr

namespace PooledServer

def new : PooledServer where
  started := false
  pool := .new
  returned := []

/-- `SetThreadNum`, which asserts that the number is not negative. -/
def setThreadNum (s : PooledServer) (numThreads : ℕ) : PooledServer :=
  { s with pool := s.pool.setThreadNum numThreads }

/-- `Start`, without the listening. -/
def start (s : PooledServer) : PooledServer :=
  if s.started then s else { s with started := true, pool := s.pool.start }

/-- A call of `get_next_dispatcher`. -/
def getNextDispatcher (s : PooledServer) : Option PooledServer :=
  s.pool.getNextDispatcher.map fun (dispatcher, pool) =>
    { s with pool := pool, returned := s.returned ++ [dispatcher] }

def step (s : PooledServer) : PoolCall → Option PooledServer
  | .start => some s.start
  | .getNextDispatcher => s.getNextDispatcher

/-- A server with `n` threads, behind its first `Start`. -/
def machine (n : ℕ) : Machine PooledServer PoolCall where
  init := (new.setThreadNum n).start
  step := step

structure Inv (n : ℕ) (s : PooledServer) : Prop where
  started : s.started = true
  pool : s.pool.Started n s.returned.length
  returned : s.returned = (List.range s.returned.length).map (DispatcherPool.turn n)

variable {n : ℕ} {s : PooledServer}

theorem inv_init (n : ℕ) : (machine n).init.Inv n where
  started := rfl
  pool := DispatcherPool.started_start n
  returned := rfl

/-- Each call is made, and keeps the turns. -/
theorem inv_step (h : s.Inv n) (call : PoolCall) :
    ∃ t, s.step call = some t ∧ t.Inv n ∧
      t.returned.length = s.returned.length + [call].count .getNextDispatcher := by
  cases call with
  | start =>
      -- the pool has been started before
      exact ⟨s, congrArg some (if_pos h.started), h, rfl⟩
  | getNextDispatcher =>
      obtain ⟨pool, hpool, hstarted⟩ := h.pool.getNextDispatcher
      set d := DispatcherPool.turn n s.returned.length with hd
      have hlength : (s.returned ++ [d]).length = s.returned.length + 1 := List.length_append
      have hstep : s.step .getNextDispatcher =
          some { s with pool := pool, returned := s.returned ++ [d] } := by
        rw [step, getNextDispatcher, hpool, Option.map_some]
      refine ⟨_, hstep, ⟨h.started, ?_, ?_⟩, hlength⟩
      · rwa [hlength]
      · rw [hlength, List.range_succ, List.map_append, ← h.returned]
        rfl

theorem inv_exec (h : s.Inv n) (calls : List PoolCall) :
    ∃ t, (machine n).exec s calls = some t ∧ t.Inv n ∧
      t.returned.length = s.returned.length + calls.count .getNextDispatcher := by
  induction calls generalizing s with
  | nil => exact ⟨s, rfl, h, rfl⟩
  | cons call calls ih =>
      obtain ⟨t, ht, hinv, hlength⟩ := inv_step h call
      obtain ⟨u, hu, hinvu, hlengthu⟩ := ih hinv
      have hcount : (call :: calls).count PoolCall.getNextDispatcher =
          [call].count .getNextDispatcher + calls.count .getNextDispatcher := by
        rw [← List.count_append]
        rfl
      refine ⟨u, Option.bind_eq_some_iff.mpr ⟨t, ht, hu⟩, hinvu, ?_⟩
      rw [hlengthu, hlength, hcount, Nat.add_assoc]

/-- With I/O loops, what is returned are turns. -/
theorem Inv.returned_eq (h : s.Inv n) (hn : n ≠ 0) :
    s.returned = (RoundRobin.turns n 0 s.returned.length).map (· + 1) := by
  calc s.returned = (List.range s.returned.length).map (DispatcherPool.turn n) := h.returned
    _ = (RoundRobin.turns n 0 s.returned.length).map (· + 1) := by
        rw [RoundRobin.turns, List.map_map]
        apply List.map_congr_left
        intro i _
        rw [DispatcherPool.turn, if_neg hn, Function.comp_apply, Nat.zero_add]

theorem Inv.base (h : s.Inv 0) : ∀ d ∈ s.returned, d = DispatcherPool.base := by
  intro d hd
  rw [h.returned] at hd
  obtain ⟨i, -, rfl⟩ := List.mem_map.mp hd
  rfl

/-- A window of the returned loops. -/
theorem Inv.count_window (h : s.Inv n) {w : List ℕ} (hw : w <:+: s.returned) {d : ℕ}
    (hd : d ∈ s.pool.dispatchers) :
    w.count d = w.length / n ∨ w.count d = (w.length + n - 1) / n := by
  rw [h.pool.dispatchers] at hd
  obtain ⟨r, hr, rfl⟩ := List.mem_map.mp hd
  rw [List.mem_range] at hr
  rw [h.returned_eq (by omega)] at hw
  -- what the window shows are turns of the numbers below `n`, one off
  obtain ⟨v, hv, rfl⟩ := List.infix_map_iff.mp hw
  obtain ⟨j, hj⟩ := RoundRobin.eq_turns_of_infix hv
  rw [List.count_map_of_injective _ _ (add_left_injective 1), List.length_map, hj,
    RoundRobin.length_turns]
  exact RoundRobin.count_turns hr j v.length

/-- **Connections are balanced over the I/O loops.**  Every run of calls is made to its end, so
no index is out of range and no modulus zero.  Without I/O loops the base loop is always
returned, and with `n` of them every window has each loop as often as its length divides by `n`,
rounded down or up. -/
theorem connections_balanced (n : ℕ) (calls : List PoolCall) :
    ∃ s, (machine n).exec (machine n).init calls = some s ∧
      s.returned.length = calls.count .getNextDispatcher ∧
      s.pool.dispatchers.length = n ∧
      (n = 0 → ∀ d ∈ s.returned, d = DispatcherPool.base) ∧
      (1 ≤ n → ∀ w, w <:+: s.returned → ∀ d ∈ s.pool.dispatchers,
        w.count d = w.length / n ∨ w.count d = (w.length + n - 1) / n) := by
  obtain ⟨s, hs, h, hlength⟩ := inv_exec (inv_init n) calls
  refine ⟨s, hs, ?_, ?_, ?_, fun _ w hw d hd => h.count_window hw hd⟩
  · rw [hlength]
    exact Nat.zero_add _
  · rw [h.pool.dispatchers, List.length_map, List.length_range]
  · rintro rfl
    exact h.base

/-! ## The started server -/

/-- The server of the connections takes its loops from a pool that has been started. -/
theorem getNextDispatcher_eq {server : TcpServer} {p : DispatcherPool} {calls : ℕ}
    (h : p.Started server.numThreads calls)
    (hnext : server.next = if server.numThreads = 0 then 0 else p.next) :
    ∃ q, p.getNextDispatcher = some (server.getNextDispatcher.1, q) ∧
      q.Started server.numThreads (calls + 1) ∧
      server.getNextDispatcher.2 = if server.numThreads = 0 then 0 else q.next := by
  obtain ⟨q, hq, hstarted⟩ := h.getNextDispatcher
  by_cases hn : server.numThreads = 0
  · rw [if_pos hn] at hnext
    have hserver : server.getNextDispatcher = (0, 0) := by
      rw [TcpServer.getNextDispatcher, if_pos hn, hnext]
    refine ⟨q, ?_, hstarted, ?_⟩
    · rw [hq, DispatcherPool.turn, if_pos hn, hserver]
      rfl
    · rw [hserver, if_pos hn]
  · rw [if_neg hn] at hnext
    have hserver : server.getNextDispatcher =
        (server.next + 1, (server.next + 1) % server.numThreads) := by
      rw [TcpServer.getNextDispatcher, if_neg hn]
    refine ⟨q, ?_, hstarted, ?_⟩
    · rw [hq, DispatcherPool.turn, if_neg hn, hserver, hnext, h.next hn]
    · rw [hserver, if_neg hn, hstarted.next hn, hnext, h.next hn, Nat.mod_add_mod]

end PooledServer

end YxAlpha
