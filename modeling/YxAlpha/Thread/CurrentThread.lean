import Mathlib.Data.Nat.Notation

/-!
# The current thread

`CureentThread` of `thread/thread.h`.  `RunInThread` sets `t_tid` to `pthread_self()`; in `main`,
and in threads that `Thread` has not started, it stays 0.  So `is_same_thread` of a dispatcher
that was made in such a thread is true in all of them, although the comment on `tid` asks for it
not to be called there.
-/

namespace YxAlpha

/-- `tid_t`, a `pthread_t`. -/
abbrev Tid := ℕ

/-- How a thread came to be. -/
inductive ThreadOrigin
  /-- Not through `Thread`. -/
  | unstarted
  /-- `Thread` has started it; `self` is its `pthread_self()`. -/
  | started (self : Tid)
  deriving DecidableEq, Repr

/-- `CureentThread::tid()`. -/
def CureentThread.tid : ThreadOrigin → Tid
  | .unstarted => 0
  | .started self => self

/-- What `is_same_thread` takes the thread for that calls. -/
inductive Caller
  | loop | foreign
  deriving DecidableEq, Repr

/-- `is_same_thread` in `thread`, of a dispatcher with the `tid_` given. -/
def Caller.of (tid : Tid) (thread : ThreadOrigin) : Caller :=
  if tid = CureentThread.tid thread then .loop else .foreign

theorem Caller.of_eq_loop_iff {tid : Tid} {thread : ThreadOrigin} :
    Caller.of tid thread = .loop ↔ tid = CureentThread.tid thread := by
  unfold Caller.of
  split
  · exact iff_of_true rfl ‹_›
  · exact iff_of_false nofun ‹_›

theorem Caller.of_eq_foreign_iff {tid : Tid} {thread : ThreadOrigin} :
    Caller.of tid thread = .foreign ↔ tid ≠ CureentThread.tid thread := by
  rw [Ne, ← Caller.of_eq_loop_iff]
  cases Caller.of tid thread <;> simp

/-- A thread that `Thread` has started, among others: its `pthread_self()` is its own, and is
not 0. -/
structure StartedThread where
  self : Tid
  others : ℕ → ThreadOrigin
  distinct : ∀ n, self ≠ CureentThread.tid (others n)

end YxAlpha
