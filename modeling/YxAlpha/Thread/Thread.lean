import Mathlib.Data.Option.Basic

/-!
# Threads

The flags of `thread/thread.h`.  `Start` and `Join` assert on them; `none` is a failed
assertion.  `pthread_join` waits for the thread, so a machine takes the step of `join`
only once the thread has ended.
-/

namespace YxAlpha

structure Thread where
  started : Bool
  joined : Bool
  deriving DecidableEq, Repr

namespace Thread

def new : Thread := ⟨false, false⟩

def start (thread : Thread) : Option Thread :=
  if thread.started then none else some { thread with started := true }

def join (thread : Thread) : Option Thread :=
  if thread.started ∧ thread.joined = false then some { thread with joined := true } else none

end Thread

end YxAlpha
