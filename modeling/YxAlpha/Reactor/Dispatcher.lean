import Mathlib.Algebra.Ring.Nat
import Mathlib.Data.List.Basic
import Mathlib.Logic.Function.Basic
import YxAlpha.Library.Machine
import YxAlpha.Thread.CurrentThread

/-!
# The dispatcher

`reactor/dispatcher.h`, with the part of `reactor/selector.h` that it waits in.
One thread runs `Loop`; the steps between its statements are the constructors of
`LoopPoint`.  Other threads are numbered, and stand between the statements of
`QueueInLoop` and `Quit` as `CallPoint` says; `is_same_thread` may take one of them for
the loop thread.  The mutex makes the `push_back` of `QueueInLoop` and the swap of
`ExecutePendingFuncs` one step each; everything else interleaves.

What handlers and tasks do is up to the environment: while one of them runs, the
loop thread may call `QueueInLoop` and `Quit`.  Destroying a batch runs no code
of the user.
-/

namespace YxAlpha

/-! ## The eventfd -/

/-- A counter of 64 bits, which never takes its largest value. -/
structure Eventfd where
  counter : ℕ
  le_max : counter ≤ 2 ^ 64 - 2

namespace Eventfd

def new : Eventfd := ⟨0, Nat.zero_le _⟩

/-- `write` adds the value, or fails with `EAGAIN` when that would overflow. -/
def write (fd : Eventfd) (value : ℕ) : Option Eventfd :=
  if h : fd.counter + value ≤ 2 ^ 64 - 2 then some ⟨fd.counter + value, h⟩ else none

/-- `read` resets the counter, or fails with `EAGAIN` when it is zero. -/
def read (fd : Eventfd) : Option Eventfd := if fd.counter = 0 then none else some new

def Readable (fd : Eventfd) : Prop := fd.counter ≠ 0

instance (fd : Eventfd) : Decidable fd.Readable := by unfold Readable; infer_instance

/-- Whether the write succeeds or not, the counter is not zero after it. -/
theorem readable_write {fd : Eventfd} {value : ℕ} (hpos : 0 < value) (hmax : value ≤ 2 ^ 64 - 2) :
    ((fd.write value).getD fd).Readable := by
  unfold write
  split
  · simp only [Option.getD_some, Readable]
    omega
  · simp only [Option.getD_none, Readable]
    omega

end Eventfd

/-- `wakeup_buf`, the address of the eight bytes `"wake up"`. -/
structure WakeupBuf where
  address : ℕ
  ne_null : 0 < address
  fits : address + 8 ≤ 2 ^ 64

/-! ## Program points -/

/-- The handlers in an epoll batch. -/
inductive ReadyHandler
  | wakeup
  | other (fd : ℕ)
  deriving DecidableEq, Repr

/-- Where the loop thread is. -/
inductive LoopPoint (τ : Type*)
  /-- `Loop` has not been called, or has returned. -/
  | outside
  /-- The assertions of `Loop` have passed; `looping_ = true` is next. -/
  | asserted
  /-- `quit_ = false` is next. -/
  | started
  /-- The test of `while (!quit_)` is next. -/
  | testing
  /-- Blocked in `epoll_wait`. -/
  | selecting
  /-- `epoll_wait` has returned; `current` is inside its `HandleEvent`. -/
  | handling (current : Option ReadyHandler) (ready : List ReadyHandler)
  /-- `ExecutePendingFuncs` has set `in_calling_pending_funcs_`; the swap is next. -/
  | entered
  /-- `ExecutePendingFuncs` iterates over the rest of its batch; `current` runs. -/
  | calling (current : Option τ) (batch : List τ)

namespace LoopPoint

variable {τ : Type*}

/-- The loop thread runs code of the user. -/
def inUserCode : LoopPoint τ → Bool
  | outside | handling (some (.other _)) _ | calling (some _) _ => true
  | _ => false

def isOutside : LoopPoint τ → Bool
  | outside => true
  | _ => false

/-- The loop thread is in `ExecutePendingFuncs`. -/
def calls : LoopPoint τ → Bool
  | entered | calling _ _ => true
  | _ => false

/-- `looping_` is set. -/
def loops : LoopPoint τ → Bool
  | outside | asserted => false
  | _ => true

theorem eq_outside_of_isOutside {point : LoopPoint τ} (houtside : point.isOutside = true) :
    point = .outside := by
  cases point with
  | outside => rfl
  | _ => cases houtside

theorem eq_outside {point : LoopPoint τ} (huser : point.inUserCode = true)
    (hlooping : point.loops = false) : point = .outside := by
  cases point with
  | outside => rfl
  | asserted => cases huser
  | _ => cases hlooping

end LoopPoint

/-- Where another thread is. -/
inductive CallPoint
  | idle
  /-- In `QueueInLoop`, past its `push_back`. -/
  | queued
  /-- In `Quit`, past `quit_ = true`. -/
  | quitting
  deriving DecidableEq, Repr

/-! ## The dispatcher -/

structure Dispatcher (τ : Type*) where
  looping : Bool
  quit : Bool
  tid : Tid
  wakeupFd : Eventfd
  inCallingPendingFuncs : Bool
  pendingFuncs : List τ
  point : LoopPoint τ
  /-- The loop thread is in `QueueInLoop`, past its `push_back`. -/
  selfQueued : Bool
  others : ℕ → ThreadOrigin
  threads : ℕ → CallPoint
  /-- An assertion has failed. -/
  failed : Bool
  /-- The tasks that have been called. -/
  executed : List τ

namespace Dispatcher

variable {τ : Type*} (d : Dispatcher τ)

/-- The dispatcher that the thread `owner` makes, and on which it will call `Loop`. -/
def new (owner : ThreadOrigin) (others : ℕ → ThreadOrigin) : Dispatcher τ where
  looping := false
  quit := false
  tid := CureentThread.tid owner
  wakeupFd := .new
  inCallingPendingFuncs := false
  pendingFuncs := []
  point := .outside
  selfQueued := false
  others := others
  threads := fun _ => .idle
  failed := false
  executed := []

def fail : Dispatcher τ := { d with failed := true }

def setThread (n : ℕ) (point : CallPoint) : Dispatcher τ :=
  { d with threads := Function.update d.threads n point }

/-- `Wakeup`; a failed `write` is only logged. -/
def wakeup (buf : WakeupBuf) : Dispatcher τ :=
  { d with wakeupFd := (d.wakeupFd.write buf.address).getD d.wakeupFd }

/-- `HandleRead`; a failed `read` is only logged. -/
def handleRead : Dispatcher τ := { d with wakeupFd := d.wakeupFd.read.getD d.wakeupFd }

/-- The critical section of `QueueInLoop`. -/
def pushBack (task : τ) : Dispatcher τ := { d with pendingFuncs := d.pendingFuncs ++ [task] }

/-- `is_same_thread`, called by the thread `n`. -/
def caller (n : ℕ) : Caller := .of d.tid (d.others n)

/-- The condition of `Wakeup` in the call in which the thread `n` is. -/
def wakesUp (n : ℕ) : Bool :=
  match d.threads n with
  | .idle => false
  | .queued => d.caller n = .foreign ∨ d.inCallingPendingFuncs
  | .quitting => d.caller n = .foreign

/-- `epoll_wait` reports a handler once, and the wake-up handler only when its fd is
readable.  It may also report less than that, or return without an event. -/
def Reports (ready : List ReadyHandler) : Prop :=
  ready.Nodup ∧ (.wakeup ∈ ready → d.wakeupFd.Readable)

instance (ready : List ReadyHandler) : Decidable (d.Reports ready) := by
  unfold Reports; infer_instance

end Dispatcher

/-! ## Steps -/

inductive DispatcherAction (τ : Type*)
  | loop
  | setLooping
  | resetQuit
  | testQuit
  | select (ready : List ReadyHandler)
  | startEvent
  | handleRead
  | finishEvent
  | enterPendingFuncs
  | swapPendingFuncs
  | startTask
  | finishTask
  | finishPendingFuncs
  /-- `QueueInLoop` on the loop thread, up to its `push_back`. -/
  | queueInLoop (task : τ)
  /-- The rest of `QueueInLoop` on the loop thread. -/
  | afterPush
  | quit
  | threadQueueInLoop (n : ℕ) (task : τ)
  | threadQuit (n : ℕ)
  /-- The rest of `QueueInLoop` or `Quit` on another thread. -/
  | threadReturn (n : ℕ)
  deriving Repr

/-- The task that the action queues. -/
def DispatcherAction.task? {τ : Type*} : DispatcherAction τ → Option τ
  | queueInLoop task | threadQueueInLoop _ task => some task
  | _ => none

/-- The tasks of the calls of `QueueInLoop`, in the order in which these take the mutex. -/
def tasksQueued {τ : Type*} (actions : List (DispatcherAction τ)) : List τ :=
  actions.filterMap DispatcherAction.task?

namespace Dispatcher

variable {τ : Type*}

/-- A step of the loop thread outside `QueueInLoop`. -/
def stepLoop (d : Dispatcher τ) : DispatcherAction τ → Option (Dispatcher τ)
  | .loop =>
      if d.point.inUserCode then
        if d.looping ∨ d.quit then some d.fail else some { d with point := .asserted }
      else none
  | .setLooping =>
      match d.point with
      | .asserted => some { d with looping := true, point := .started }
      | _ => none
  | .resetQuit =>
      match d.point with
      | .started => some { d with quit := false, point := .testing }
      | _ => none
  | .testQuit =>
      match d.point with
      | .testing =>
          if d.quit then some { d with looping := false, point := .outside }
          else some { d with point := .selecting }
      | _ => none
  | .select ready =>
      match d.point with
      | .selecting =>
          if d.Reports ready then some { d with point := .handling none ready } else none
      | _ => none
  | .startEvent =>
      match d.point with
      | .handling none (handler :: ready) =>
          some { d with point := .handling (some handler) ready }
      | _ => none
  | .handleRead =>
      match d.point with
      | .handling (some .wakeup) ready => some { d.handleRead with point := .handling none ready }
      | _ => none
  | .finishEvent =>
      match d.point with
      | .handling (some (.other _)) ready => some { d with point := .handling none ready }
      | _ => none
  | .enterPendingFuncs =>
      match d.point with
      | .handling none [] => some { d with inCallingPendingFuncs := true, point := .entered }
      | _ => none
  | .swapPendingFuncs =>
      match d.point with
      | .entered => some { d with pendingFuncs := [], point := .calling none d.pendingFuncs }
      | _ => none
  | .startTask =>
      match d.point with
      | .calling none (task :: batch) =>
          some { d with point := .calling (some task) batch, executed := d.executed ++ [task] }
      | _ => none
  | .finishTask =>
      match d.point with
      | .calling (some _) batch => some { d with point := .calling none batch }
      | _ => none
  | .finishPendingFuncs =>
      match d.point with
      | .calling none [] => some { d with inCallingPendingFuncs := false, point := .testing }
      | _ => none
  | .queueInLoop task =>
      if d.point.inUserCode then some { d.pushBack task with selfQueued := true } else none
  | .quit =>
      if d.point.inUserCode then
        if d.quit then some d.fail else some { d with quit := true }
      else none
  | _ => none

/-- A step of another thread. -/
def stepThread (buf : WakeupBuf) (d : Dispatcher τ) (n : ℕ) :
    DispatcherAction τ → Option (Dispatcher τ)
  | .threadQueueInLoop _ task =>
      if d.threads n = .idle then some ((d.pushBack task).setThread n .queued) else none
  | .threadQuit _ =>
      if d.threads n = .idle then
        if d.quit then some d.fail else some ({ d with quit := true }.setThread n .quitting)
      else none
  | .threadReturn _ =>
      if d.threads n = .idle then none
      else some ((if d.wakesUp n then d.wakeup buf else d).setThread n .idle)
  | _ => none

/-- The steps of the program; after a failed assertion there are none. -/
def step (buf : WakeupBuf) (d : Dispatcher τ) (action : DispatcherAction τ) :
    Option (Dispatcher τ) :=
  if d.failed then none
  else
    match action with
    | .threadQueueInLoop n _ | .threadQuit n | .threadReturn n => d.stepThread buf n action
    | .afterPush =>
        if d.selfQueued then
          let returned := { d with selfQueued := false }
          some (if d.inCallingPendingFuncs then returned.wakeup buf else returned)
        else none
    | _ => if d.selfQueued then none else d.stepLoop action

def machine (τ : Type*) (buf : WakeupBuf) (owner : ThreadOrigin) (others : ℕ → ThreadOrigin) :
    Machine (Dispatcher τ) (DispatcherAction τ) where
  init := new owner others
  step := step buf

/-! ## What a step of the loop thread does -/

variable {d e : Dispatcher τ} {buf : WakeupBuf}

/-- The steps of the loop thread outside `QueueInLoop`, one constructor for each
branch of `stepLoop`. -/
inductive LoopStep (d : Dispatcher τ) : DispatcherAction τ → Dispatcher τ → Prop
  | loopFails : d.looping = true ∨ d.quit = true → LoopStep d .loop d.fail
  | loop : d.point.inUserCode = true → d.looping = false → d.quit = false →
      LoopStep d .loop { d with point := .asserted }
  | setLooping : d.point = .asserted →
      LoopStep d .setLooping { d with looping := true, point := .started }
  | resetQuit : d.point = .started →
      LoopStep d .resetQuit { d with quit := false, point := .testing }
  | leave : d.point = .testing → d.quit = true →
      LoopStep d .testQuit { d with looping := false, point := .outside }
  | stay : d.point = .testing → d.quit = false →
      LoopStep d .testQuit { d with point := .selecting }
  | select {ready : List ReadyHandler} : d.point = .selecting → d.Reports ready →
      LoopStep d (.select ready) { d with point := .handling none ready }
  | startEvent {handler : ReadyHandler} {ready : List ReadyHandler} :
      d.point = .handling none (handler :: ready) →
      LoopStep d .startEvent { d with point := .handling (some handler) ready }
  | handleRead {ready : List ReadyHandler} : d.point = .handling (some .wakeup) ready →
      LoopStep d .handleRead { d.handleRead with point := .handling none ready }
  | finishEvent {fd : ℕ} {ready : List ReadyHandler} :
      d.point = .handling (some (.other fd)) ready →
      LoopStep d .finishEvent { d with point := .handling none ready }
  | enterPendingFuncs : d.point = .handling none [] →
      LoopStep d .enterPendingFuncs { d with inCallingPendingFuncs := true, point := .entered }
  | swapPendingFuncs : d.point = .entered →
      LoopStep d .swapPendingFuncs
        { d with pendingFuncs := [], point := .calling none d.pendingFuncs }
  | startTask {task : τ} {batch : List τ} : d.point = .calling none (task :: batch) →
      LoopStep d .startTask
        { d with point := .calling (some task) batch, executed := d.executed ++ [task] }
  | finishTask {task : τ} {batch : List τ} : d.point = .calling (some task) batch →
      LoopStep d .finishTask { d with point := .calling none batch }
  | finishPendingFuncs : d.point = .calling none [] →
      LoopStep d .finishPendingFuncs { d with inCallingPendingFuncs := false, point := .testing }
  | queueInLoop {task : τ} : d.point.inUserCode = true →
      LoopStep d (.queueInLoop task) { d.pushBack task with selfQueued := true }
  | quitFails : d.quit = true → LoopStep d .quit d.fail
  | quit : d.point.inUserCode = true → d.quit = false → LoopStep d .quit { d with quit := true }

theorem loopStep_of_stepLoop {action : DispatcherAction τ} (hstep : d.stepLoop action = some e) :
    LoopStep d action e := by
  cases action with
  | loop =>
      simp only [stepLoop] at hstep
      split at hstep
      · split at hstep <;> cases hstep
        · exact .loopFails ‹_›
        · rename_i huser hassert
          rw [not_or, Bool.not_eq_true, Bool.not_eq_true] at hassert
          exact .loop huser hassert.1 hassert.2
      · cases hstep
  | testQuit =>
      simp only [stepLoop] at hstep
      split at hstep
      · split at hstep <;> cases hstep
        · exact .leave ‹_› ‹_›
        · exact .stay ‹_› (by simpa using ‹¬ d.quit = true›)
      · cases hstep
  | select ready =>
      simp only [stepLoop] at hstep
      split at hstep
      · split at hstep <;> cases hstep
        exact .select ‹_› ‹_›
      · cases hstep
  | quit =>
      simp only [stepLoop] at hstep
      split at hstep
      · split at hstep <;> cases hstep
        · exact .quitFails ‹_›
        · exact .quit ‹_› (by simpa using ‹¬ d.quit = true›)
      · cases hstep
  | threadQueueInLoop | threadQuit | threadReturn | afterPush => cases hstep
  | _ =>
      simp only [stepLoop] at hstep
      split at hstep <;> cases hstep
      constructor
      assumption

/-- The steps of the program. -/
inductive Step (buf : WakeupBuf) (d : Dispatcher τ) : DispatcherAction τ → Dispatcher τ → Prop
  | loop {action : DispatcherAction τ} {e : Dispatcher τ} : d.selfQueued = false →
      LoopStep d action e → Step buf d action e
  | afterPush : d.selfQueued = true → d.inCallingPendingFuncs = false →
      Step buf d .afterPush { d with selfQueued := false }
  | afterPushWakeup : d.selfQueued = true → d.inCallingPendingFuncs = true →
      Step buf d .afterPush ({ d with selfQueued := false }.wakeup buf)
  | threadQueueInLoop {n : ℕ} {task : τ} : d.threads n = .idle →
      Step buf d (.threadQueueInLoop n task) ((d.pushBack task).setThread n .queued)
  | threadQuitFails {n : ℕ} : d.threads n = .idle → d.quit = true →
      Step buf d (.threadQuit n) d.fail
  | threadQuit {n : ℕ} : d.threads n = .idle → d.quit = false →
      Step buf d (.threadQuit n) ({ d with quit := true }.setThread n .quitting)
  | threadWakeup {n : ℕ} : d.threads n ≠ .idle → d.wakesUp n = true →
      Step buf d (.threadReturn n) ((d.wakeup buf).setThread n .idle)
  | threadReturn {n : ℕ} : d.threads n ≠ .idle → d.wakesUp n = false →
      Step buf d (.threadReturn n) (d.setThread n .idle)

theorem step_cases {action : DispatcherAction τ} (hstep : d.step buf action = some e) :
    Step buf d action e := by
  unfold step at hstep
  split at hstep
  · cases hstep
  · cases action with
    | threadQueueInLoop n task =>
        simp only [stepThread] at hstep
        split at hstep <;> cases hstep
        exact .threadQueueInLoop ‹_›
    | threadQuit n =>
        simp only [stepThread] at hstep
        split at hstep
        · split at hstep <;> cases hstep
          · exact .threadQuitFails ‹_› ‹_›
          · exact .threadQuit ‹_› (by simpa using ‹¬ d.quit = true›)
        · cases hstep
    | threadReturn n =>
        simp only [stepThread] at hstep
        split at hstep <;> cases hstep
        split
        · exact .threadWakeup ‹_› ‹_›
        · exact .threadReturn ‹_› (by simpa using ‹¬ d.wakesUp n = true›)
    | afterPush =>
        dsimp only at hstep
        split at hstep
        · rename_i hself
          split at hstep <;> cases hstep
          · exact .afterPushWakeup hself ‹_›
          · exact .afterPush hself (by simpa using ‹¬ d.inCallingPendingFuncs = true›)
        · cases hstep
    | _ =>
        dsimp only at hstep
        split at hstep
        · cases hstep
        · exact .loop (by simpa using ‹¬ d.selfQueued = true›) (loopStep_of_stepLoop hstep)

/-! ## The flags -/

/-- The flags tell where the loop thread is; so a second call of `Loop` fails. -/
structure FlagsKept (d : Dispatcher τ) : Prop where
  looping : d.looping = d.point.loops
  calling : d.inCallingPendingFuncs = d.point.calls

theorem FlagsKept.stepLoop {action : DispatcherAction τ} (hd : d.FlagsKept)
    (hstep : LoopStep d action e) : e.FlagsKept := by
  have hlooping := hd.looping
  have hcalling := hd.calling
  cases hstep with
  | loopFails | quitFails | quit | queueInLoop => exact ⟨hlooping, hcalling⟩
  | loop huser hnot =>
      have hpoint := LoopPoint.eq_outside huser (hlooping.symm.trans hnot)
      rw [hpoint] at hcalling
      exact ⟨hnot, hcalling⟩
  | setLooping hpoint | leave hpoint =>
      rw [hpoint] at hcalling
      exact ⟨rfl, hcalling⟩
  | enterPendingFuncs hpoint | finishPendingFuncs hpoint =>
      rw [hpoint] at hlooping
      exact ⟨hlooping, rfl⟩
  | resetQuit hpoint | stay hpoint | select hpoint | startEvent hpoint | handleRead hpoint
  | finishEvent hpoint | swapPendingFuncs hpoint | startTask hpoint | finishTask hpoint =>
      rw [hpoint] at hlooping hcalling
      exact ⟨hlooping, hcalling⟩

theorem FlagsKept.frame (hd : d.FlagsKept) (hlooping : e.looping = d.looping)
    (hcalling : e.inCallingPendingFuncs = d.inCallingPendingFuncs) (hpoint : e.point = d.point) :
    e.FlagsKept :=
  ⟨by rw [hlooping, hpoint, hd.looping], by rw [hcalling, hpoint, hd.calling]⟩

theorem FlagsKept.step {action : DispatcherAction τ} (hd : d.FlagsKept)
    (hstep : Step buf d action e) : e.FlagsKept := by
  cases hstep with
  | loop hself hloop => exact hd.stepLoop hloop
  | _ => exact hd.frame rfl rfl rfl

theorem flagsKept_new {owner : ThreadOrigin} {others : ℕ → ThreadOrigin} :
    (new owner others : Dispatcher τ).FlagsKept := ⟨rfl, rfl⟩

/-! ## The threads -/

/-- No step changes what `is_same_thread` says. -/
theorem Step.caller_eq {action : DispatcherAction τ} (hstep : Step buf d action e) (n : ℕ) :
    e.caller n = d.caller n := by
  cases hstep with
  | loop hself hloop => cases hloop <;> rfl
  | _ => rfl

theorem wakesUp_of_foreign {n : ℕ} (hforeign : d.caller n = .foreign)
    (hbusy : d.threads n ≠ .idle) :
    d.wakesUp n = true := by
  unfold wakesUp
  cases hpoint : d.threads n with
  | idle => exact absurd hpoint hbusy
  | queued => simp [hforeign]
  | quitting => simp [hforeign]

end Dispatcher

end YxAlpha
