import Mathlib.Algebra.Order.Ring.Nat
import YxAlpha.Library.Condition
import YxAlpha.Library.Machine
import YxAlpha.Thread.Thread

/-!
# The thread pool

`ThreadPool` of `thread/threadpool.h`, with `max_queue_size_` as a parameter.  What a thread
does while it holds the mutex is one step; a worker stands between the statements of
`RunTask` and `PopTask` as `WorkerPoint` says, and a call of `PushTask` that sleeps on
`cond_full_` is known by its task.  Callers of `PushTask` are any threads; `Start`, `Stop`
and the destructor are called by one owner.

A task is a `std::function`, which may be empty.  A failed assertion is recorded in
`failed` and ends the run.
-/

namespace YxAlpha

/-- Where a worker thread is. -/
inductive WorkerPoint (τ : Type*)
  /-- The test of `while (running_)` is next. -/
  | testing
  /-- In `PopTask`, before the mutex. -/
  | popping
  /-- In `cond_empty_.wait()`. -/
  | waiting
  /-- `PopTask` has returned the task. -/
  | calling (task : Option τ)
  | exited
  deriving DecidableEq, Repr

structure Worker (τ : Type*) where
  thread : Thread
  point : WorkerPoint τ
  /-- How often the thread has been joined. -/
  joins : ℕ

/-- Where the owner of the pool is. -/
inductive PoolOwner
  | idle
  /-- In the loop of `Stop`, called by the destructor if `last`. -/
  | joining (next : ℕ) (last : Bool)
  | destroyed
  deriving DecidableEq, Repr

structure ThreadPool (maxQueueSize : ℕ) (τ : Type*) where
  running : Bool
  workers : List (Worker τ)
  queue : List (Option τ)
  condFull : Condition (Option τ)
  condEmpty : Condition ℕ
  owner : PoolOwner
  failed : Bool
  /-- The workers of earlier rounds. -/
  discarded : List (Worker τ)
  /-- The tasks that have been taken out of it, with their workers. -/
  dequeued : List (ℕ × Option τ)
  /-- The tasks that have been run, with their workers. -/
  ran : List (ℕ × τ)
  /-- The tasks that `PushTask` has run itself. -/
  inlined : List τ
  /-- How often `PushTask` has thrown `bad_function_call`. -/
  thrown : ℕ

/-- Steps of the threads; the environment says which waiters a signal wakes. -/
inductive PoolAction (τ : Type*)
  | start (numThreads : ℕ)
  /-- `Stop`, up to its loop. -/
  | stop
  | destroy
  | join
  | push (task : Option τ) (woken : Multiset ℕ)
  | resumePush (wakeup : Wakeup) (task : Option τ) (woken : Multiset ℕ)
  | test (worker : ℕ)
  | pop (worker : ℕ) (woken : Multiset (Option τ))
  | resumePop (wakeup : Wakeup) (worker : ℕ) (woken : Multiset (Option τ))
  | call (worker : ℕ)

namespace ThreadPool

variable {M : ℕ} {τ : Type*}

def new : ThreadPool M τ where
  running := false
  workers := []
  queue := []
  condFull := .new
  condEmpty := .new
  owner := .idle
  failed := false
  discarded := []
  dequeued := []
  ran := []
  inlined := []
  thrown := 0

variable (s : ThreadPool M τ)

def fail : ThreadPool M τ := { s with failed := true }

def pointOf (w : ℕ) : Option (WorkerPoint τ) := s.workers[w]?.map Worker.point

def setPoint (w : ℕ) (point : WorkerPoint τ) : ThreadPool M τ :=
  { s with workers := s.workers.modify w fun worker => { worker with point } }

def setFull (condFull : Condition (Option τ)) : ThreadPool M τ := { s with condFull }

def setEmpty (condEmpty : Condition ℕ) : ThreadPool M τ := { s with condEmpty }

/-! ## The owner -/

/-- The old thread objects are destroyed and new ones started. -/
def start (numThreads : ℕ) : ThreadPool M τ :=
  if s.running then s.fail
  else
    match Thread.new.start with
    | some thread =>
        { s with
          running := true
          workers := List.replicate numThreads ⟨thread, .testing, 0⟩
          discarded := s.discarded ++ s.workers }
    | none => s.fail

def stop (last : Bool) : ThreadPool M τ :=
  { s with running := false, condEmpty := s.condEmpty.notifyAll, owner := .joining 0 last }

def destroyed : ThreadPool M τ :=
  { s with workers := [], discarded := s.discarded ++ s.workers, owner := .destroyed }

def joined (next : ℕ) (last : Bool) (worker : Worker τ) (thread : Thread) : ThreadPool M τ :=
  { s with
    workers := s.workers.set next { worker with thread, joins := worker.joins + 1 }
    owner := .joining (next + 1) last }

/-- The loop of `Stop`; a join returns when the worker has left `RunTask`. -/
def join (next : ℕ) (last : Bool) : Option (ThreadPool M τ) :=
  match s.workers[next]? with
  | none => some (if last then s.destroyed else { s with owner := .idle })
  | some worker =>
      match worker.thread.join with
      | none => some s.fail
      | some thread =>
          match worker.point with
          | .exited => some (s.joined next last worker thread)
          | _ => none

/-! ## Producers and workers -/

/-- `PushTask` without thread objects; nothing tests that the task can be called. -/
def callInline (task : Option τ) : ThreadPool M τ :=
  { s with
    inlined := s.inlined ++ task.toList
    thrown := s.thrown + task.isNone.toNat }

def enqueue (task : Option τ) : ThreadPool M τ := { s with queue := s.queue ++ [task] }

def dequeue (w : ℕ) (task : Option τ) (rest : List (Option τ)) : ThreadPool M τ :=
  { s with queue := rest, dequeued := s.dequeued ++ [(w, task)] }

/-- `PushTask` under the mutex, from the test of its loop on. -/
def pushTask (task : Option τ) (woken : Multiset ℕ) : Option (ThreadPool M τ) :=
  if 0 < M ∧ M ≤ s.queue.length then some (s.setFull (s.condFull.wait task))
  else if s.queue.length ≤ M then
    match s.condEmpty.notify woken with
    | some condEmpty => some ((s.enqueue task).setEmpty condEmpty)
    | none => none
  else some s.fail

variable [DecidableEq τ]

/-- `PopTask` under the mutex, from the test of its loop on. -/
def popTask (w : ℕ) (woken : Multiset (Option τ)) : Option (ThreadPool M τ) :=
  match s.queue with
  | [] =>
      if s.running then some ((s.setEmpty (s.condEmpty.wait w)).setPoint w .waiting)
      else some (s.setPoint w (.calling none))
  | task :: rest =>
      if rest.length < M then
        match if 0 < M then s.condFull.notify woken else some s.condFull with
        | some condFull =>
            some (((s.dequeue w task rest).setFull condFull).setPoint w (.calling task))
        | none => none
      else some s.fail

def call (w : ℕ) (task : Option τ) : ThreadPool M τ :=
  { s with ran := s.ran ++ (task.map (w, ·)).toList }.setPoint w .testing

/-! ## Steps -/

def step (s : ThreadPool M τ) (action : PoolAction τ) : Option (ThreadPool M τ) :=
  if s.failed ∨ s.owner = .destroyed then none
  else
    match action with
    | .start numThreads => if s.owner = .idle then some (s.start numThreads) else none
    | .stop => if s.owner = .idle then some (s.stop false) else none
    | .destroy =>
        if s.owner = .idle then some (if s.running then s.stop true else s.destroyed) else none
    | .join =>
        match s.owner with
        | .joining next last => s.join next last
        | _ => none
    | .push task woken =>
        if s.workers = [] then some (s.callInline task) else s.pushTask task woken
    | .resumePush wakeup task woken =>
        match s.condFull.resume wakeup task with
        | some condFull => (s.setFull condFull).pushTask task woken
        | none => none
    | .test w =>
        if s.pointOf w = some .testing then
          some (s.setPoint w (if s.running then .popping else .exited))
        else none
    | .pop w woken => if s.pointOf w = some .popping then s.popTask w woken else none
    | .resumePop wakeup w woken =>
        match s.condEmpty.resume wakeup w with
        | some condEmpty => (s.setEmpty condEmpty).popTask w woken
        | none => none
    | .call w =>
        match s.pointOf w with
        | some (.calling task) => some (s.call w task)
        | _ => none

def machine (M : ℕ) (τ : Type*) [DecidableEq τ] : Machine (ThreadPool M τ) (PoolAction τ) where
  init := new
  step := step

end ThreadPool

end YxAlpha
