import YxAlpha.Reactor.Wakeup
import YxAlpha.Thread.Thread

/-!
# Quitting a dispatch thread

`reactor/dispatchthread.h` over the dispatcher it creates.  `ThreadFunc` constructs the
dispatcher, publishes it under the mutex and calls `Loop`; `Start` waits until it is
published and hands it out.  From then on another thread may call `Quit`, once, and
`~DispatchThread` then joins the thread.

`Loop` asserts that `quit_` is not set and clears it, and both may come after the call
of `Quit`: it is handed out before `Loop` is entered.  Once `Loop` has cleared `quit_`
nothing does so again, and the loop thread leaves at its next test (`quit_kept`).
-/

namespace YxAlpha

/-- Where the caller of `Start` is. -/
inductive StartPoint
  | outside
  /-- The thread is started; the critical section is next. -/
  | created
  /-- In `cond_.wait()`. -/
  | waiting
  | returned
  deriving DecidableEq, Repr

/-- Where `ThreadFunc` is. -/
inductive FuncPoint
  | notStarted
  | started
  /-- The dispatcher is constructed; the critical section is next. -/
  | constructed
  /-- `dispatcher_` is set; the call of `Loop` is next. -/
  | published
  /-- In `Loop`, or back from it. -/
  | looping
  | finished
  deriving DecidableEq, Repr

structure DispatchThread (τ : Type*) where
  thread : Thread
  /-- `dispatcher_` is not null. -/
  hasDispatcher : Bool
  start : StartPoint
  func : FuncPoint
  dispatcher : Dispatcher τ
  failed : Bool
  /-- `~DispatchThread` has returned. -/
  destructed : Bool
  /-- `Quit` has set `quit_`. -/
  quitCalled : Bool
  /-- How often the test of `Loop` has let the loop thread pass since. -/
  begunAfterQuit : ℕ

inductive DispatchThreadAction (τ : Type*)
  | start
  /-- `Start` takes the mutex, first or after a wake-up. -/
  | lockStart
  | construct
  | publish
  | dispatcher (action : DispatcherAction τ)
  /-- `ThreadFunc` returns and destroys its dispatcher. -/
  | returnFunc
  /-- `thread_.Join()` in `~DispatchThread` returns. -/
  | join
  deriving Repr

namespace DispatchThread

variable {τ : Type*}

/-- The thread that will make the dispatcher is one of `Thread`. -/
def new (threads : StartedThread) : DispatchThread τ where
  thread := .new
  hasDispatcher := false
  start := .outside
  func := .notStarted
  dispatcher := .new (.started threads.self) threads.others
  failed := false
  destructed := false
  quitCalled := false
  begunAfterQuit := 0

def fail (s : DispatchThread τ) : DispatchThread τ := { s with failed := true }

/-- Who may take a step on the dispatcher.  User code runs inside `Loop` only, `Quit` is
called by one other thread and once, and the others have their pointer from `Start`. -/
def Allows (s : DispatchThread τ) : DispatcherAction τ → Prop
  | .loop => s.func = .published
  | .quit => False
  | .queueInLoop _ => s.func = .looping ∧ s.dispatcher.point.isOutside = false
  | .threadQuit _ => s.start = .returned ∧ s.quitCalled = false
  | .threadQueueInLoop _ _ => s.start = .returned ∧ s.func ≠ .finished
  | .threadReturn _ => True
  | _ => s.func = .looping

instance (s : DispatchThread τ) (action : DispatcherAction τ) : Decidable (s.Allows action) := by
  cases action <;> unfold Allows <;> infer_instance

/-- The state after a step of the dispatcher to `d`. -/
def setDispatcher (s : DispatchThread τ) (d : Dispatcher τ) : DispatcherAction τ → DispatchThread τ
  | .loop => { s with dispatcher := d, func := .looping }
  | .threadQuit _ => { s with dispatcher := d, quitCalled := true }
  | .testQuit =>
      { s with
        dispatcher := d
        begunAfterQuit :=
          if s.quitCalled ∧ d.point.isOutside = false then s.begunAfterQuit + 1
          else s.begunAfterQuit }
  | _ => { s with dispatcher := d }

@[simp]
theorem dispatcher_setDispatcher (s : DispatchThread τ) (d : Dispatcher τ)
    (action : DispatcherAction τ) : (s.setDispatcher d action).dispatcher = d := by
  cases action <;> rfl

def step (buf : WakeupBuf) (s : DispatchThread τ) (action : DispatchThreadAction τ) :
    Option (DispatchThread τ) :=
  if s.failed then none
  else
    match action with
    | .start =>
        if s.start = .outside then
          match s.thread.start with
          | some thread => some { s with thread, start := .created, func := .started }
          | none => some s.fail
        else none
    | .lockStart =>
        if s.start = .created ∨ s.start = .waiting then
          some { s with start := if s.hasDispatcher then .returned else .waiting }
        else none
    | .construct => if s.func = .started then some { s with func := .constructed } else none
    | .publish =>
        if s.func = .constructed then some { s with hasDispatcher := true, func := .published }
        else none
    | .dispatcher action =>
        if s.Allows action then
          (s.dispatcher.step buf action).map fun d => s.setDispatcher d action
        else none
    | .returnFunc =>
        if s.func = .looping ∧ s.dispatcher.point.isOutside then
          if s.dispatcher.looping then some s.fail else some { s with func := .finished }
        else none
    | .join =>
        if s.quitCalled ∧ s.destructed = false then
          match s.thread.join with
          | some thread =>
              if s.func = .finished then some { s with thread, destructed := true } else none
          | none => some s.fail
        else none

def machine (τ : Type*) (buf : WakeupBuf) (threads : StartedThread) :
    Machine (DispatchThread τ) (DispatchThreadAction τ) where
  init := new threads
  step := step buf

/-! ## Quitting -/

end DispatchThread

namespace LoopPoint

variable {τ : Type*}

/-- `Loop` has executed `quit_ = false`, and has not returned. -/
def pastReset : LoopPoint τ → Bool
  | outside | asserted | started => false
  | _ => true

end LoopPoint

namespace DispatchThreadAction

variable {τ : Type*}

/-- A statement of `ThreadFunc`, with no call from user code. -/
def own : DispatchThreadAction τ → Bool
  | .dispatcher (.queueInLoop _) | .dispatcher .quit | .dispatcher (.threadQueueInLoop _ _)
  | .dispatcher (.threadQuit _) | .dispatcher (.threadReturn _) => false
  | .construct | .publish | .dispatcher _ | .returnFunc => true
  | _ => false

end DispatchThreadAction

namespace DispatchThread

variable {τ : Type*} {s t : DispatchThread τ} {buf : WakeupBuf} {threads : StartedThread}

/-- `Quit` is called once `Loop` has executed `quit_ = false`. -/
def QuitsInLoop (s : DispatchThread τ) : DispatchThreadAction τ → Prop
  | .dispatcher (.threadQuit _) => s.dispatcher.point.pastReset = true
  | _ => True

instance (s : DispatchThread τ) (action : DispatchThreadAction τ) :
    Decidable (s.QuitsInLoop action) := by
  unfold QuitsInLoop
  split <;> infer_instance

/-- The call of `Quit` is not lost. -/
structure QuitKept (buf : WakeupBuf) (threads : StartedThread) (s : DispatchThread τ) : Prop where
  asserts : s.failed = false ∧ s.dispatcher.failed = false
  kept : s.quitCalled = true → s.dispatcher.quit = true
  /-- No iteration of `Loop` begins after `Quit` has set `quit_`. -/
  noneBegun : s.begunAfterQuit = 0
  /-- A blocked loop thread is woken up. -/
  wakes : s.quitCalled = true → s.dispatcher.point = .selecting →
    s.dispatcher.wakeupFd.Readable ∨ ∃ n, s.dispatcher.threads n = .quitting
  /-- Its own statements take `ThreadFunc` to its end. -/
  ends : s.quitCalled = true → ∃ actions t, (∀ action ∈ actions, action.own = true) ∧
    (machine τ buf threads).exec s actions = some t ∧ t.func = .finished

structure Inv (s : DispatchThread τ) : Prop where
  notFailed : s.failed = false ∧ s.dispatcher.failed = false
  flags : s.dispatcher.FlagsKept
  thread : s.thread.started = false ↔ s.start = .outside
  idle : s.func = .notStarted ↔ s.start = .outside
  joined : s.destructed = false → s.thread.joined = false
  unset : s.quitCalled = false → s.dispatcher.quit = false
  kept : s.quitCalled = true → s.dispatcher.quit = true
  /-- `Quit` comes after `quit_ = false`. -/
  after : s.quitCalled = true → s.start ≠ .outside ∧
    (s.dispatcher.point.pastReset = true ∨ s.dispatcher.point = .outside)
  /-- Before the call of `Loop` and after it the loop thread is outside; after it only
  because of `Quit`. -/
  outside : s.func ≠ .looping → s.dispatcher.point = .outside
  called : s.dispatcher.point = .outside →
    (s.quitCalled = true ↔ s.func = .looping ∨ s.func = .finished)
  user : s.dispatcher.selfQueued = true →
    s.dispatcher.point.inUserCode = true ∧ s.dispatcher.point.isOutside = false
  begun : s.begunAfterQuit = 0
  wakes : s.quitCalled = true → s.dispatcher.point = .selecting →
    s.dispatcher.wakeupFd.Readable ∨ ∃ n, s.dispatcher.threads n = .quitting

theorem inv_new : (new threads : DispatchThread τ).Inv where
  notFailed := ⟨rfl, rfl⟩
  flags := Dispatcher.flagsKept_new
  thread := by simp [new, Thread.new]
  idle := by simp [new]
  joined _ := rfl
  unset _ := rfl
  kept h := by cases h
  after h := by cases h
  outside _ := rfl
  called _ := by simp [new]
  user h := by cases h
  begun := rfl
  wakes h := by cases h

/-- On the way to `quit_ = false`, `Quit` has not been called. -/
theorem Inv.not_called (hs : s.Inv) (hreset : s.dispatcher.point.pastReset = false)
    (hinside : s.dispatcher.point ≠ .outside) : s.quitCalled = false := by
  by_contra hcalled
  rcases (hs.after (by simpa using hcalled)).2 with h | h
  · rw [h] at hreset
    cases hreset
  · exact hinside h

theorem Inv.called_of_quit (hs : s.Inv) (hquit : s.dispatcher.quit = true) :
    s.quitCalled = true := by
  by_contra hcalled
  rw [hs.unset (by simpa using hcalled)] at hquit
  cases hquit

theorem Inv.published (hs : s.Inv) (hfunc : s.func = .published) :
    s.dispatcher.point = .outside ∧ s.quitCalled = false := by
  have hpoint := hs.outside (by simp [hfunc])
  refine ⟨hpoint, ?_⟩
  by_contra hcalled
  have := (hs.called hpoint).mp (by simpa using hcalled)
  simp [hfunc] at this

/-! ## Steps of the dispatcher -/

/-- A step of the loop thread inside `Loop` that leaves `quit_` as it is. -/
theorem Inv.stepInside {d : Dispatcher τ} (hs : s.Inv) (hfunc : s.func = .looping)
    (hflags : d.FlagsKept) (hfailed : d.failed = false) (hquit : d.quit = s.dispatcher.quit)
    (hself : d.selfQueued = false) (hinside : d.point ≠ .outside)
    (hafter : s.quitCalled = true → d.point.pastReset = true)
    (hwakes : s.quitCalled = true → d.point ≠ .selecting) : Inv { s with dispatcher := d } :=
  { hs with
    notFailed := ⟨hs.notFailed.1, hfailed⟩
    flags := hflags
    unset := fun h => hquit.trans (hs.unset h)
    kept := fun h => hquit.trans (hs.kept h)
    after := fun h => ⟨(hs.after h).1, Or.inl (hafter h)⟩
    outside := fun h => absurd hfunc h
    called := fun h => absurd h hinside
    user := by
      intro h
      rw [show d.selfQueued = false from hself] at h
      cases h
    wakes := fun h hpoint => absurd hpoint (hwakes h) }

/-- A step that leaves the loop thread where it is. -/
theorem Inv.stepElsewhere {d : Dispatcher τ} (hs : s.Inv) (hflags : d.FlagsKept)
    (hfailed : d.failed = false) (hquit : d.quit = s.dispatcher.quit)
    (hpoint : d.point = s.dispatcher.point)
    (huser : d.selfQueued = true → d.point.inUserCode = true ∧ d.point.isOutside = false)
    (hwakes : s.quitCalled = true →
      s.dispatcher.wakeupFd.Readable ∨ (∃ n, s.dispatcher.threads n = .quitting) →
        d.wakeupFd.Readable ∨ ∃ n, d.threads n = .quitting) : Inv { s with dispatcher := d } :=
  { hs with
    notFailed := ⟨hs.notFailed.1, hfailed⟩
    flags := hflags
    unset := fun h => hquit.trans (hs.unset h)
    kept := fun h => hquit.trans (hs.kept h)
    after := fun h => ⟨(hs.after h).1, by rw [hpoint]; exact (hs.after h).2⟩
    outside := fun h => hpoint.trans (hs.outside h)
    called := fun h => hs.called (hpoint.symm.trans h)
    user := huser
    wakes := fun h hselecting => hwakes h (hs.wakes h (hpoint.symm.trans hselecting)) }

theorem Inv.loopStep {action : DispatcherAction τ} {d : Dispatcher τ} (hs : s.Inv)
    (hallows : s.Allows action) (hself : s.dispatcher.selfQueued = false)
    (hstep : Dispatcher.LoopStep s.dispatcher action d) : (s.setDispatcher d action).Inv := by
  have hflags := hs.flags.stepLoop hstep
  cases hstep with
  | quit | quitFails => exact hallows.elim
  | loopFails hassert =>
      obtain ⟨hpoint, hcalled⟩ := hs.published hallows
      have hlooping := hs.flags.looping
      rw [hpoint] at hlooping
      rw [hlooping, hs.unset hcalled] at hassert
      simp [LoopPoint.loops] at hassert
  | loop huser hnot hquit =>
      obtain ⟨hpoint, hcalled⟩ := hs.published hallows
      have hidle : FuncPoint.looping = .notStarted ↔ s.start = .outside := by
        rw [← hs.idle, show s.func = .published from hallows]
        simp
      exact { hs with
        flags := hflags
        idle := hidle
        after := fun h => by rw [show s.quitCalled = true from h] at hcalled; cases hcalled
        outside := fun h => absurd rfl h
        called := nofun
        user := fun h => by rw [show s.dispatcher.selfQueued = true from h] at hself; cases hself
        wakes := fun _ => nofun }
  | setLooping hpoint =>
      have hcalled := hs.not_called (by rw [hpoint]; rfl) (by rw [hpoint]; nofun)
      exact hs.stepInside hallows hflags hs.notFailed.2 rfl hself nofun
        (fun h => by rw [hcalled] at h; cases h) fun _ => nofun
  | resetQuit hpoint =>
      have hcalled := hs.not_called (by rw [hpoint]; rfl) (by rw [hpoint]; nofun)
      exact hs.stepInside hallows hflags hs.notFailed.2 (hs.unset hcalled).symm hself nofun
        (fun h => by rw [hcalled] at h; cases h) fun _ => nofun
  | leave hpoint hquit =>
      have hcalled := hs.called_of_quit hquit
      have hfunc : s.func = .looping := hallows
      exact { hs with
        flags := hflags
        after := fun h => ⟨(hs.after h).1, Or.inr rfl⟩
        outside := fun _ => rfl
        called := fun _ => iff_of_true hcalled (Or.inl hfunc)
        user := fun h => by rw [show s.dispatcher.selfQueued = true from h] at hself; cases hself
        begun := by simpa [setDispatcher, LoopPoint.isOutside] using hs.begun
        wakes := fun _ => nofun }
  | stay hpoint hquit =>
      have hcalled : s.quitCalled = false := by
        by_contra h
        rw [hs.kept (by simpa using h)] at hquit
        cases hquit
      have hstay := hs.stepInside hallows hflags hs.notFailed.2 rfl hself nofun (fun _ => rfl)
        fun h => by rw [hcalled] at h; cases h
      simpa [setDispatcher, hcalled] using hstay
  | queueInLoop huser =>
      exact hs.stepElsewhere hflags hs.notFailed.2 rfl rfl (fun _ => ⟨huser, hallows.2⟩)
        fun _ h => h
  | select hpoint | startEvent hpoint | handleRead hpoint | finishEvent hpoint
  | enterPendingFuncs hpoint | swapPendingFuncs hpoint | startTask hpoint | finishTask hpoint
  | finishPendingFuncs hpoint =>
      exact hs.stepInside hallows hflags hs.notFailed.2 rfl hself nofun
        (fun _ => rfl) fun _ => nofun

/-- The one call of `Quit`, from a thread that has the pointer. -/
theorem Inv.threadQuit {n : ℕ} (hs : s.Inv) (hallows : s.Allows (.threadQuit n))
    (hguard : s.dispatcher.point.pastReset = true) :
    (s.setDispatcher ({ s.dispatcher with quit := true }.setThread n .quitting)
      (.threadQuit n)).Inv :=
  { hs with
    flags := hs.flags.frame rfl rfl rfl
    unset := nofun
    kept := fun _ => rfl
    after := fun _ => ⟨by simp [setDispatcher, hallows.1], Or.inl hguard⟩
    called := by
      intro h
      rw [show s.dispatcher.point = .outside from h] at hguard
      cases hguard
    wakes := fun _ _ => Or.inr ⟨n, Function.update_self _ _ _⟩ }

/-- No other thread is taken for the loop thread. -/
def Foreign (s : DispatchThread τ) : Prop := ∀ n, s.dispatcher.caller n = .foreign

theorem foreign_new : (new threads : DispatchThread τ).Foreign :=
  fun n => Caller.of_eq_foreign_iff.mpr (threads.distinct n)

theorem Inv.dispatcher {action : DispatcherAction τ} {d : Dispatcher τ} (hs : s.Inv)
    (hforeign : s.Foreign) (hallows : s.Allows action) (hguard : s.QuitsInLoop (.dispatcher action))
    (hstep : Dispatcher.Step buf s.dispatcher action d) : (s.setDispatcher d action).Inv := by
  have hflags := hs.flags.step hstep
  cases hstep with
  | loop hself hloop => exact hs.loopStep hallows hself hloop
  | threadQuitFails hidle hquit =>
      have hcalled := hs.called_of_quit hquit
      rw [hallows.2] at hcalled
      cases hcalled
  | threadQuit => exact hs.threadQuit hallows hguard
  | afterPush => exact hs.stepElsewhere hflags hs.notFailed.2 rfl rfl nofun fun _ h => h
  | afterPushWakeup =>
      exact hs.stepElsewhere hflags hs.notFailed.2 rfl rfl nofun
        fun _ _ => Or.inl Dispatcher.readable_wakeup
  | @threadQueueInLoop n task hidle =>
      apply hs.stepElsewhere hflags hs.notFailed.2 rfl rfl hs.user
      intro _ h
      refine h.imp_right fun ⟨m, hm⟩ => ⟨m, ?_⟩
      have hne : m ≠ n := by
        rintro rfl
        rw [hidle] at hm
        cases hm
      exact (Function.update_of_ne hne _ _).trans hm
  | @threadReturn n hbusy hskipped =>
      rw [Dispatcher.wakesUp_of_foreign (hforeign n) hbusy] at hskipped
      cases hskipped
  | threadWakeup =>
      have hreadable : (s.dispatcher.wakeup buf).wakeupFd.Readable := Dispatcher.readable_wakeup
      exact hs.stepElsewhere hflags hs.notFailed.2 rfl rfl hs.user fun _ _ => Or.inl hreadable

/-! ## Steps of the thread -/

/-- A step of `ThreadFunc` before the call of `Loop` or after it. -/
theorem Inv.stepFunc {func : FuncPoint} {hasDispatcher : Bool} (hs : s.Inv)
    (hnew : func ≠ .notStarted) (hfunc : func ≠ .looping) (hold : s.func ≠ .notStarted)
    (hpoint : s.dispatcher.point = .outside)
    (hcalled : s.func = .looping ∨ s.func = .finished ↔ func = .finished) :
    Inv { s with func, hasDispatcher } :=
  { hs with
    idle := iff_of_false hnew (hs.idle.not.mp hold)
    outside := fun _ => hpoint
    called := by
      intro _
      rw [hs.called hpoint, hcalled]
      exact (or_iff_right hfunc).symm }

theorem Inv.start {thread : Thread} (hs : s.Inv) (hstart : s.start = .outside)
    (hthread : s.thread.start = some thread) :
    Inv { s with thread, start := .created, func := .started } := by
  have hstarted := hs.thread.mpr hstart
  have hcalled : s.quitCalled = false := by
    by_contra h
    exact (hs.after (by simpa using h)).1 hstart
  have hpoint : s.dispatcher.point = .outside := by
    apply hs.outside
    rw [hs.idle.mpr hstart]
    nofun
  simp only [Thread.start, hstarted, Bool.false_eq_true, if_false, Option.some.injEq] at hthread
  exact { hs with
    thread := by simp [← hthread]
    idle := by simp
    joined := by simpa [← hthread] using hs.joined
    after := fun h => by rw [show s.quitCalled = true from h] at hcalled; cases hcalled
    outside := fun _ => hpoint
    called := fun _ => by simp [hcalled] }

theorem Inv.join (hs : s.Inv) (hcalled : s.quitCalled = true) (hdestructed : s.destructed = false) :
    s.thread.join = some { s.thread with joined := true } ∧
      Inv { s with thread := { s.thread with joined := true }, destructed := true } := by
  have hstarted : s.thread.started = true := by
    by_contra h
    exact (hs.after hcalled).1 (hs.thread.mp (by simpa using h))
  refine ⟨by simp [Thread.join, hstarted, hs.joined hdestructed], ?_⟩
  exact { hs with joined := nofun }

theorem Foreign.step {action : DispatchThreadAction τ} (hs : s.Foreign)
    (hstep : step buf s action = some t) : t.Foreign := by
  unfold DispatchThread.step at hstep
  split at hstep
  · cases hstep
  · cases action with
    | dispatcher action =>
        dsimp only at hstep
        split at hstep
        · obtain ⟨d, hd, rfl⟩ := Option.map_eq_some_iff.mp hstep
          intro n
          rw [dispatcher_setDispatcher, (Dispatcher.step_cases hd).caller_eq]
          exact hs n
        · cases hstep
    | start | join =>
        dsimp only at hstep
        split at hstep
        · split at hstep
          · first
            | cases hstep
              exact hs
            | split at hstep <;> cases hstep
              exact hs
          · cases hstep
            exact hs
        · cases hstep
    | lockStart | construct | publish =>
        dsimp only at hstep
        split at hstep <;> cases hstep
        exact hs
    | returnFunc =>
        dsimp only at hstep
        split at hstep
        · split at hstep <;> cases hstep <;> exact hs
        · cases hstep

theorem Inv.step {action : DispatchThreadAction τ} (hs : s.Inv) (hforeign : s.Foreign)
    (hguard : s.QuitsInLoop action)
    (hstep : step buf s action = some t) : t.Inv := by
  unfold DispatchThread.step at hstep
  rw [if_neg (by simp [hs.notFailed.1])] at hstep
  cases action with
  | start =>
      dsimp only at hstep
      split at hstep
      · rename_i hstart
        split at hstep <;> cases hstep
        · exact hs.start hstart ‹_›
        · rename_i hthread
          simp [Thread.start, hs.thread.mpr hstart] at hthread
      · cases hstep
  | lockStart =>
      dsimp only at hstep
      split at hstep <;> cases hstep
      rename_i hstart
      have hold : s.start ≠ .outside := by rcases hstart with h | h <;> simp [h]
      have hnew : (if s.hasDispatcher then StartPoint.returned else .waiting) ≠ .outside := by
        split <;> nofun
      exact { hs with
        thread := hs.thread.trans (iff_of_false hold hnew)
        idle := hs.idle.trans (iff_of_false hold hnew)
        after := fun h => ⟨hnew, (hs.after h).2⟩ }
  | construct | publish =>
      dsimp only at hstep
      split at hstep <;> cases hstep
      rename_i hfunc
      have hpoint := hs.outside (by simp [hfunc])
      exact hs.stepFunc nofun nofun (by simp [hfunc]) hpoint (by simp [hfunc])
  | dispatcher action =>
      dsimp only at hstep
      split at hstep
      · obtain ⟨d, hd, rfl⟩ := Option.map_eq_some_iff.mp hstep
        exact hs.dispatcher hforeign ‹_› hguard (Dispatcher.step_cases hd)
      · cases hstep
  | returnFunc =>
      dsimp only at hstep
      split at hstep
      · rename_i hfunc
        have hpoint := LoopPoint.eq_outside_of_isOutside hfunc.2
        have hlooping := hs.flags.looping
        rw [hpoint] at hlooping
        rw [if_neg (by simp [hlooping, LoopPoint.loops])] at hstep
        cases hstep
        exact hs.stepFunc nofun nofun (by simp [hfunc.1]) hpoint (by simp [hfunc.1])
      · cases hstep
  | join =>
      dsimp only at hstep
      split at hstep
      · rename_i hcalled
        obtain ⟨hjoin, hinv⟩ := hs.join hcalled.1 hcalled.2
        rw [hjoin] at hstep
        dsimp only at hstep
        split at hstep <;> cases hstep
        exact hinv
      · cases hstep

/-! ## Leaving the loop

After `Quit` every statement of `ThreadFunc` takes it nearer to its end: the batches of
events and of tasks get shorter, and the test of `Loop` ends it.
-/

end DispatchThread

namespace Dispatcher

variable {τ : Type*} {d : Dispatcher τ}

/-- A bound on the statements up to the return of `Loop`, for a loop thread that is past
`quit_ = false` and an `epoll_wait` without events. -/
def distance (d : Dispatcher τ) : ℕ :=
  (if d.selfQueued then 1 else 0) +
    match d.point with
    | .testing => 1
    | .calling current batch => (if current.isSome then 3 else 2) + 2 * batch.length
    | .entered => 3 + 2 * d.pendingFuncs.length
    | .handling current ready =>
        (if current.isSome then 5 else 4) + 2 * ready.length + 2 * d.pendingFuncs.length
    | .selecting => 5 + 2 * d.pendingFuncs.length
    | _ => 0

/-- The next statement of the loop thread. -/
def nextStatement (d : Dispatcher τ) : DispatcherAction τ :=
  if d.selfQueued then .afterPush
  else
    match d.point with
    | .outside => .loop
    | .asserted => .setLooping
    | .started => .resetQuit
    | .testing => .testQuit
    | .selecting => .select []
    | .handling none [] => .enterPendingFuncs
    | .handling none (_ :: _) => .startEvent
    | .handling (some .wakeup) _ => .handleRead
    | .handling (some (.other _)) _ => .finishEvent
    | .entered => .swapPendingFuncs
    | .calling none [] => .finishPendingFuncs
    | .calling none (_ :: _) => .startTask
    | .calling (some _) _ => .finishTask

theorem step_nextStatement (buf : WakeupBuf) (hfailed : d.failed = false) (hquit : d.quit = true)
    (hpast : d.point.pastReset = true) :
    ∃ e, d.step buf d.nextStatement = some e ∧ e.distance < d.distance := by
  by_cases hself : d.selfQueued = true
  · refine ⟨if d.inCallingPendingFuncs then { d with selfQueued := false }.wakeup buf
      else { d with selfQueued := false }, ?_, ?_⟩
    · simp [step, nextStatement, hfailed, hself]
    · split <;> simp [distance, wakeup, hself]
  · cases hpoint : d.point with
    | outside | asserted | started => rw [hpoint] at hpast; cases hpast
    | testing =>
        refine ⟨{ d with looping := false, point := .outside }, ?_, ?_⟩
        · simp [step, nextStatement, stepLoop, hfailed, hself, hpoint, hquit]
        · simp [distance, hself, hpoint]
    | selecting =>
        refine ⟨{ d with point := .handling none [] }, ?_, ?_⟩
        · simp [step, nextStatement, stepLoop, hfailed, hself, hpoint, Reports]
        · simp [distance, hself, hpoint]
    | handling current ready =>
        cases current with
        | none =>
            cases ready with
            | nil =>
                refine ⟨{ d with inCallingPendingFuncs := true, point := .entered }, ?_, ?_⟩
                · simp [step, nextStatement, stepLoop, hfailed, hself, hpoint]
                · simp [distance, hself, hpoint]
            | cons handler ready =>
                refine ⟨{ d with point := .handling (some handler) ready }, ?_, ?_⟩
                · simp [step, nextStatement, stepLoop, hfailed, hself, hpoint]
                · simp [distance, hself, hpoint]
                  omega
        | some handler =>
            cases handler with
            | wakeup =>
                refine ⟨{ d.handleRead with point := .handling none ready }, ?_, ?_⟩
                · simp [step, nextStatement, stepLoop, hfailed, hself, hpoint]
                · simp [distance, Dispatcher.handleRead, hself, hpoint]
            | other fd =>
                refine ⟨{ d with point := .handling none ready }, ?_, ?_⟩
                · simp [step, nextStatement, stepLoop, hfailed, hself, hpoint]
                · simp [distance, hself, hpoint]
    | entered =>
        refine ⟨{ d with pendingFuncs := [], point := .calling none d.pendingFuncs }, ?_, ?_⟩
        · simp [step, nextStatement, stepLoop, hfailed, hself, hpoint]
        · simp [distance, hself, hpoint]
    | calling current batch =>
        cases current with
        | none =>
            cases batch with
            | nil =>
                refine ⟨{ d with inCallingPendingFuncs := false, point := .testing }, ?_, ?_⟩
                · simp [step, nextStatement, stepLoop, hfailed, hself, hpoint]
                · simp [distance, hself, hpoint]
            | cons task batch =>
                refine ⟨{ d with
                  point := .calling (some task) batch, executed := d.executed ++ [task] }, ?_, ?_⟩
                · simp [step, nextStatement, stepLoop, hfailed, hself, hpoint]
                · simp [distance, hself, hpoint]
                  omega
        | some task =>
            refine ⟨{ d with point := .calling none batch }, ?_, ?_⟩
            · simp [step, nextStatement, stepLoop, hfailed, hself, hpoint]
            · simp [distance, hself, hpoint]

/-- With `quit_` set, the next statement is one of `Loop`. -/
theorem nextStatement_cases (hpast : d.point.pastReset = true) :
    (DispatchThreadAction.dispatcher d.nextStatement).own = true ∧
      ∀ s : DispatchThread τ, s.func = .looping → s.Allows d.nextStatement := by
  unfold nextStatement
  split
  · exact ⟨rfl, fun _ hfunc => hfunc⟩
  · split <;> first
      | exact ⟨rfl, fun _ hfunc => hfunc⟩
      | (rename_i hpoint; rw [hpoint] at hpast; cases hpast)

end Dispatcher

namespace DispatchThread

variable {τ : Type*} {s t : DispatchThread τ} {buf : WakeupBuf}

theorem quitCalled_setDispatcher {d : Dispatcher τ} {action : DispatcherAction τ}
    (hcalled : s.quitCalled = true) : (s.setDispatcher d action).quitCalled = true := by
  cases action <;> first | exact hcalled | rfl

theorem quitsInLoop_of_own {action : DispatchThreadAction τ} (hown : action.own = true) :
    s.QuitsInLoop action := by
  cases action with
  | dispatcher action => cases action <;> trivial
  | _ => trivial

/-- After `Quit` the loop thread can take its next statement, unless it is outside. -/
theorem Inv.nextStatement (buf : WakeupBuf) (hs : s.Inv) (hcalled : s.quitCalled = true)
    (hinside : s.dispatcher.point ≠ .outside) :
    ∃ action t, action.own = true ∧ s.step buf action = some t ∧ t.quitCalled = true ∧
      t.dispatcher.distance < s.dispatcher.distance := by
  have hpast := (hs.after hcalled).2.resolve_right hinside
  have hfunc : s.func = .looping := by
    by_contra h
    exact hinside (hs.outside h)
  obtain ⟨e, he, hlt⟩ :=
    Dispatcher.step_nextStatement buf hs.notFailed.2 (hs.kept hcalled) hpast
  obtain ⟨hown, hallows⟩ := Dispatcher.nextStatement_cases hpast
  refine ⟨.dispatcher s.dispatcher.nextStatement, s.setDispatcher e s.dispatcher.nextStatement,
    hown, ?_, quitCalled_setDispatcher hcalled, ?_⟩
  · simp [DispatchThread.step, hs.notFailed.1, hallows s hfunc, he]
  · rwa [dispatcher_setDispatcher]

theorem Inv.ends (hs : s.Inv) (hforeign : s.Foreign) (hcalled : s.quitCalled = true) :
    ∃ actions t, (∀ action ∈ actions, action.own = true) ∧
      (machine τ buf threads).exec s actions = some t ∧ t.func = .finished := by
  induction hn : s.dispatcher.distance using Nat.strong_induction_on generalizing s with
  | _ n ih =>
      by_cases hpoint : s.dispatcher.point = .outside
      · rcases (hs.called hpoint).mp hcalled with hfunc | hfunc
        · refine ⟨[.returnFunc], { s with func := .finished }, by simp [DispatchThreadAction.own],
            ?_, rfl⟩
          simp [Machine.exec, machine, DispatchThread.step, hs.notFailed.1, hfunc, hpoint,
            hs.flags.looping,
            LoopPoint.isOutside, LoopPoint.loops]
        · exact ⟨[], s, by simp, rfl, hfunc⟩
      · obtain ⟨action, t, hown, hstep, hcalledt, hlt⟩ := hs.nextStatement buf hcalled hpoint
        have ht := hs.step hforeign (quitsInLoop_of_own hown) hstep
        rw [hn] at hlt
        obtain ⟨actions, u, howns, hrun, hfunc⟩ := ih _ hlt ht (hforeign.step hstep) hcalledt rfl
        refine ⟨action :: actions, u, List.forall_mem_cons.mpr ⟨hown, howns⟩, ?_, hfunc⟩
        exact Option.bind_eq_some_iff.mpr ⟨t, hstep, hrun⟩

/-! ## A `Quit` in the loop is kept -/

theorem Inv.quitKept (hs : s.Inv) (hforeign : s.Foreign) : s.QuitKept buf threads where
  asserts := hs.notFailed
  kept := hs.kept
  noneBegun := hs.begun
  wakes := hs.wakes
  ends := hs.ends hforeign

/-- In a run where `Quit` is called once `Loop` has executed `quit_ = false`, no assertion
fails and the call is kept. -/
theorem quit_kept (buf : WakeupBuf) (threads : StartedThread)
    (actions : List (DispatchThreadAction τ))
    (hquit : (machine τ buf threads).EachStep QuitsInLoop (machine τ buf threads).init actions) :
    (machine τ buf threads).Throughout (QuitKept buf threads) (machine τ buf threads).init
        actions :=
  (Machine.throughout_of_guarded (I := fun s => s.Inv ∧ s.Foreign)
    (fun _ _ _ hs hG hstep => ⟨hs.1.step hs.2 hG hstep, hs.2.step hstep⟩) ⟨inv_new, foreign_new⟩
    hquit).mono fun _ hs => hs.1.quitKept hs.2

/-- A dispatch thread that is given out to threads not started by `Thread`. -/
def threadsOfMain : StartedThread := ⟨7, fun _ => .unstarted, fun _ => by decide⟩

/-- `Quit` finds the loop thread blocked in `epoll_wait`. -/
theorem quit_kept_blocked :
    (machine ℕ ⟨4096, by decide, by decide⟩ threadsOfMain).Throughout
      (QuitKept ⟨4096, by decide, by decide⟩ threadsOfMain)
      (machine ℕ ⟨4096, by decide, by decide⟩ threadsOfMain).init
      [.start, .lockStart, .construct, .publish, .lockStart, .dispatcher .loop,
        .dispatcher .setLooping, .dispatcher .resetQuit, .dispatcher .testQuit,
        .dispatcher (.threadQuit 0), .dispatcher (.threadReturn 0),
        .dispatcher (.select [.wakeup]), .dispatcher .startEvent, .dispatcher .handleRead,
        .dispatcher .enterPendingFuncs, .dispatcher .swapPendingFuncs,
        .dispatcher .finishPendingFuncs, .dispatcher .testQuit, .returnFunc, .join] :=
  quit_kept _ _ _ (by decide +kernel)

/-! ## A `Quit` before the loop -/

/-- `Start` returns, and `Quit` is called before `ThreadFunc` calls `Loop`. -/
def quitBeforeLoop : List (DispatchThreadAction ℕ) :=
  [.start, .lockStart, .construct, .publish, .lockStart, .dispatcher (.threadQuit 0),
    .dispatcher .loop]

/-- `Quit` is called between the assertions of `Loop` and its `quit_ = false`. -/
def quitBeforeReset : List (DispatchThreadAction ℕ) :=
  [.start, .lockStart, .construct, .publish, .lockStart, .dispatcher .loop,
    .dispatcher (.threadQuit 0), .dispatcher .setLooping, .dispatcher .resetQuit,
    .dispatcher .testQuit]

theorem quit_lost :
    ((machine ℕ ⟨4096, by decide, by decide⟩ threadsOfMain).exec (new threadsOfMain)
        quitBeforeLoop).map (fun s => s.dispatcher.failed) = some true ∧
      ((machine ℕ ⟨4096, by decide, by decide⟩ threadsOfMain).exec (new threadsOfMain)
        quitBeforeReset).map
        (fun s => (s.quitCalled, s.dispatcher.quit, s.begunAfterQuit)) = some (true, false, 1) ∧
      ¬ ∀ actions, (machine ℕ ⟨4096, by decide, by decide⟩ threadsOfMain).Throughout
        (QuitKept ⟨4096, by decide, by decide⟩ threadsOfMain) (new threadsOfMain) actions := by
  refine ⟨by decide +kernel, by decide +kernel, ?_⟩
  intro h
  have hasserts := (h quitBeforeLoop).mono fun _ hs => hs.asserts.2
  revert hasserts
  decide +kernel

end DispatchThread

end YxAlpha
