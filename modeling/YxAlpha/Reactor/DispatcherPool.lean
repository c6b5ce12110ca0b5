import YxAlpha.Library.RoundRobin

/-!
# The pool of I/O loops

`DispatcherPool` of `reactor/dispatcherpool.cc`.  Loop 0 is the base loop, and the threads that
`Start` starts run the loops behind it, in order.

The cursor `next_` wraps by `num_threads_` but is an index of `dispatchers_`; the two agree as
long as `Start` has been called once, after `set_thread_num` (`Started`).
-/

namespace YxAlpha

structure DispatcherPool where
  started : Bool
  numThreads : ℕ
  next : ℕ
  dispatchers : List ℕ

namespace DispatcherPool

def new : DispatcherPool where
  started := false
  numThreads := 0
  next := 0
  dispatchers := []

def base : ℕ := 0

/-- `set_thread_num`. -/
def setThreadNum (p : DispatcherPool) (num : ℕ) : DispatcherPool := { p with numThreads := num }

def start (p : DispatcherPool) : DispatcherPool :=
  { p with
    started := true
    dispatchers := p.dispatchers ++
      (List.range p.numThreads).map fun i => p.dispatchers.length + i + 1 }

/-- `get_next_dispatcher`; `none` for an index that is not in `dispatchers_`, and for a modulus
of zero. -/
def getNextDispatcher (p : DispatcherPool) : Option (ℕ × DispatcherPool) :=
  if p.dispatchers ≠ [] then
    p.dispatchers[p.next]?.bind fun dispatcher =>
      if p.numThreads = 0 then none
      else some (dispatcher, { p with next := (p.next + 1) % p.numThreads })
  else some (base, p)

/-- A pool that has been started once with `n` threads, and asked `calls` times. -/
structure Started (n calls : ℕ) (p : DispatcherPool) : Prop where
  numThreads : p.numThreads = n
  dispatchers : p.dispatchers = (List.range n).map (· + 1)
  next : n ≠ 0 → p.next = calls % n

/-- The loop that the next call returns after `calls` of them. -/
def turn (n calls : ℕ) : ℕ := if n = 0 then base else calls % n + 1

theorem started_start (n : ℕ) : (new.setThreadNum n).start.Started n 0 where
  numThreads := rfl
  dispatchers := by
    show [] ++ (List.range n).map (fun i => 0 + i + 1) = _
    simp
  next _ := (Nat.zero_mod n).symm

/-- The index is in range, the modulus is not zero, and the loops take turns. -/
theorem Started.getNextDispatcher {n calls : ℕ} {p : DispatcherPool} (h : p.Started n calls) :
    ∃ q, p.getNextDispatcher = some (turn n calls, q) ∧ q.Started n (calls + 1) := by
  by_cases hn : n = 0
  · -- without threads, neither the index nor the modulus is used
    have hnil : p.dispatchers = [] := by
      rw [h.dispatchers, hn]
      rfl
    refine ⟨p, ?_, h.numThreads, h.dispatchers, fun hne => absurd hn hne⟩
    rw [DispatcherPool.getNextDispatcher, if_neg (not_not.mpr hnil), turn, if_pos hn]
  · have hlt : calls % n < n := Nat.mod_lt calls (Nat.pos_of_ne_zero hn)
    have hindex : p.dispatchers[p.next]? = some (calls % n + 1) := by
      rw [h.dispatchers, h.next hn, List.getElem?_map, List.getElem?_range hlt]
      rfl
    have hne : p.dispatchers ≠ [] := by
      intro hnil
      rw [hnil] at hindex
      cases hindex
    have hthreads : p.numThreads ≠ 0 := h.numThreads ▸ hn
    refine ⟨{ p with next := (p.next + 1) % p.numThreads }, ?_, h.numThreads, h.dispatchers,
      fun _ => ?_⟩
    · rw [DispatcherPool.getNextDispatcher, if_pos hne, hindex, Option.bind_some,
        if_neg hthreads, turn, if_neg hn]
    · show (p.next + 1) % p.numThreads = _
      rw [h.next hn, h.numThreads, Nat.mod_add_mod]

end DispatcherPool

end YxAlpha
