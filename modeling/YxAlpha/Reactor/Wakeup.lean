import YxAlpha.Reactor.Dispatcher

/-!
# Wake-ups

A task is pushed and the wake-up is written in two steps, and the loop thread
skips the wake-up when it is not calling tasks.  Between its return from
`epoll_wait` and the swap nothing is promised about pending tasks: the swap will
take them all.  From the swap on, until it has returned from `epoll_wait` again,
pending tasks are `Signalled`, unless the loop thread itself is between its
`push_back` and its `Wakeup`.

The loop thread may only queue tasks from inside `Loop`.  Before, it would neither
write a wake-up nor reach the swap before it blocks.

Another thread that `is_same_thread` takes for the loop thread skips the wake-up as
well, and at any time.  So no wake-up is lost in any run exactly if there is no such
thread (`no_lost_wakeup_iff`).
-/

namespace YxAlpha

namespace Dispatcher

variable {τ : Type*} {d e : Dispatcher τ} {buf : WakeupBuf}

/-- The wake-up of pending tasks is there, or will be written by the thread that is
between its `push_back` and its `Wakeup`. -/
def Signalled (d : Dispatcher τ) : Prop :=
  d.pendingFuncs ≠ [] → d.wakeupFd.Readable ∨ ∃ n, d.threads n = .queued

/-- The loop thread is blocked only while pending tasks are signalled. -/
def NoLostWakeup (d : Dispatcher τ) : Prop := d.point = .selecting → d.Signalled

/-- The other threads that queue tasks are not taken for the loop thread. -/
def QueuesForeign (d : Dispatcher τ) : DispatcherAction τ → Prop
  | .threadQueueInLoop n _ => d.caller n = .foreign
  | _ => True

instance (d : Dispatcher τ) : ∀ action, Decidable (d.QueuesForeign action)
  | .threadQueueInLoop n _ => inferInstanceAs (Decidable (d.caller n = .foreign))
  | .loop | .setLooping | .resetQuit | .testQuit | .select _ | .startEvent | .handleRead
  | .finishEvent | .enterPendingFuncs | .swapPendingFuncs | .startTask | .finishTask
  | .finishPendingFuncs | .afterPush | .quit | .queueInLoop _ | .threadQuit _
  | .threadReturn _ => isTrue trivial

/-- The loop thread queues tasks from handlers and tasks only. -/
def QueuesInsideLoop (d : Dispatcher τ) : DispatcherAction τ → Prop
  | .queueInLoop _ => d.point.isOutside = false
  | _ => True

instance (d : Dispatcher τ) : ∀ action, Decidable (d.QueuesInsideLoop action)
  | .queueInLoop _ => inferInstanceAs (Decidable (d.point.isOutside = false))
  | .loop | .setLooping | .resetQuit | .testQuit | .select _ | .startEvent | .handleRead
  | .finishEvent | .enterPendingFuncs | .swapPendingFuncs | .startTask | .finishTask
  | .finishPendingFuncs | .afterPush | .quit | .threadQueueInLoop _ _ | .threadQuit _
  | .threadReturn _ => isTrue trivial

end Dispatcher

namespace LoopPoint

variable {τ : Type*}

/-- The swap comes before the loop thread blocks. -/
def collects : LoopPoint τ → Bool
  | handling _ _ | entered => true
  | _ => false

/-- Code of the user that runs inside `Loop` is a handler or a task. -/
theorem collects_or_calls {point : LoopPoint τ} (huser : point.inUserCode = true)
    (hinside : point.isOutside = false) : point.collects = true ∨ point.calls = true := by
  cases point with
  | outside => cases hinside
  | handling current ready => exact Or.inl rfl
  | calling current batch => exact Or.inr rfl
  | _ => cases huser

end LoopPoint

namespace Dispatcher

variable {τ : Type*} {d e : Dispatcher τ} {buf : WakeupBuf} {owner : ThreadOrigin}
  {others : ℕ → ThreadOrigin}

/-! ## Signals -/

theorem signalled_of_readable (h : d.wakeupFd.Readable) : d.Signalled := fun _ => Or.inl h

theorem signalled_of_queued {n : ℕ} (h : d.threads n = .queued) : d.Signalled :=
  fun _ => Or.inr ⟨n, h⟩

/-- After `Wakeup` the eventfd is readable, also when the counter is full. -/
theorem readable_wakeup : (d.wakeup buf).wakeupFd.Readable := by
  have hfits := buf.fits
  exact Eventfd.readable_write buf.ne_null (by omega)

/-- A thread that was not the one to write the wake-up goes on. -/
theorem Signalled.setThread {n : ℕ} {point : CallPoint} (hd : d.Signalled)
    (hn : d.threads n ≠ .queued) : (d.setThread n point).Signalled := by
  intro hpending
  rcases hd hpending with hreadable | ⟨m, hm⟩
  · exact Or.inl hreadable
  · have hne : m ≠ n := by
      rintro rfl
      exact hn hm
    exact Or.inr ⟨m, (Function.update_of_ne hne _ _).trans hm⟩

/-! ## The invariant -/

structure WakeInv (d : Dispatcher τ) : Prop where
  flags : d.FlagsKept
  user : d.selfQueued = true → d.point.inUserCode = true ∧ d.point.isOutside = false
  signalled : d.point.collects = false → d.selfQueued = false → d.Signalled

/-- The threads past their `push_back` are not taken for the loop thread. -/
def QueuedForeign (d : Dispatcher τ) : Prop := ∀ n, d.threads n = .queued → d.caller n = .foreign

theorem wakeInv_new : (new owner others : Dispatcher τ).WakeInv where
  flags := flagsKept_new
  user h := by cases h
  signalled _ _ h := absurd rfl h

theorem WakeInv.noLostWakeup (hd : d.WakeInv) : d.NoLostWakeup := by
  intro hpoint
  apply hd.signalled (by rw [hpoint]; rfl)
  by_contra hself
  have huser := (hd.user (by simpa using hself)).1
  rw [hpoint] at huser
  cases huser

/-- The invariant of a loop thread that is not in `QueueInLoop`. -/
theorem wakeInv_of_signalled (hflags : d.FlagsKept) (hself : d.selfQueued = false)
    (hsignalled : d.point.collects = false → d.Signalled) : d.WakeInv where
  flags := hflags
  user h := by
    rw [hself] at h
    cases h
  signalled h _ := hsignalled h

/-- Other threads change neither the point nor the flags. -/
theorem WakeInv.frame (hd : d.WakeInv) (hflags : e.FlagsKept) (hpoint : e.point = d.point)
    (hself : e.selfQueued = d.selfQueued) (hsignalled : d.Signalled → e.Signalled) : e.WakeInv where
  flags := hflags
  user h := by
    rw [hpoint]
    exact hd.user (hself ▸ h)
  signalled hcollects h := by
    rw [hpoint] at hcollects
    exact hsignalled (hd.signalled hcollects (hself ▸ h))

/-! ## Steps -/

theorem WakeInv.stepLoop {action : DispatcherAction τ} (hd : d.WakeInv)
    (hself : d.selfQueued = false)
    (hguard : d.QueuesInsideLoop action) (hstep : LoopStep d action e) : e.WakeInv := by
  have hflags := hd.flags.stepLoop hstep
  have hsignalled := fun h => hd.signalled h hself
  cases hstep with
  | loopFails | quitFails | quit => exact hd.frame hflags rfl rfl fun h => h
  | loop huser hnot =>
      have hpoint := LoopPoint.eq_outside huser (hd.flags.looping.symm.trans hnot)
      rw [hpoint] at hsignalled
      exact wakeInv_of_signalled hflags hself fun _ => hsignalled rfl
  | setLooping hpoint | resetQuit hpoint | leave hpoint | stay hpoint | startTask hpoint
  | finishTask hpoint | finishPendingFuncs hpoint =>
      rw [hpoint] at hsignalled
      exact wakeInv_of_signalled hflags hself fun _ => hsignalled rfl
  | select | startEvent | handleRead | finishEvent | enterPendingFuncs =>
      exact wakeInv_of_signalled hflags hself nofun
  | swapPendingFuncs =>
      -- The swap leaves nothing that needs a wake-up.
      exact wakeInv_of_signalled hflags hself fun _ hpending => absurd rfl hpending
  | queueInLoop huser => exact ⟨hflags, fun _ => ⟨huser, hguard⟩, nofun⟩

theorem QueuedForeign.setThread {n : ℕ} {point : CallPoint} (hd : d.QueuedForeign)
    (hn : point = .queued → d.caller n = .foreign) : (d.setThread n point).QueuedForeign := by
  intro m hm
  by_cases hne : m = n
  · subst hne
    exact hn ((Function.update_self _ _ _).symm.trans hm)
  · exact hd m ((Function.update_of_ne hne _ _).symm.trans hm)

theorem QueuedForeign.step {action : DispatcherAction τ} (hd : d.QueuedForeign)
    (hguard : d.QueuesForeign action) (hstep : Step buf d action e) : e.QueuedForeign := by
  cases hstep with
  | loop hself hloop => cases hloop <;> exact hd
  | afterPush | afterPushWakeup | threadQuitFails => exact hd
  | threadQueueInLoop => exact QueuedForeign.setThread (d := d.pushBack _) hd fun _ => hguard
  | threadQuit => exact QueuedForeign.setThread (d := { d with quit := true }) hd (by simp)
  | threadWakeup => exact QueuedForeign.setThread (d := d.wakeup buf) hd (by simp)
  | threadReturn => exact hd.setThread (by simp)

theorem WakeInv.step {action : DispatcherAction τ} (hd : d.WakeInv) (hforeign : d.QueuedForeign)
    (hguard : d.QueuesInsideLoop action) (hstep : Step buf d action e) : e.WakeInv := by
  have hflags := hd.flags.step hstep
  cases hstep with
  | loop hself hloop => exact hd.stepLoop hself hguard hloop
  | afterPush hself hcalling =>
      -- In a handler the wake-up is skipped, as the swap is still to come.
      obtain ⟨huser, hinside⟩ := hd.user hself
      apply wakeInv_of_signalled hflags rfl
      intro hcollects
      rcases LoopPoint.collects_or_calls huser hinside with h | h
      · rw [h] at hcollects
        cases hcollects
      · rw [hd.flags.calling, h] at hcalling
        cases hcalling
  | afterPushWakeup =>
      exact wakeInv_of_signalled hflags rfl fun _ => signalled_of_readable readable_wakeup
  | threadQueueInLoop =>
      exact hd.frame hflags rfl rfl fun _ => signalled_of_queued (Function.update_self _ _ _)
  | threadQuitFails => exact hd.frame hflags rfl rfl fun h => h
  | threadQuit hidle =>
      apply hd.frame hflags rfl rfl
      intro h
      exact Signalled.setThread (d := { d with quit := true }) h (by simp [hidle])
  | threadWakeup =>
      have hreadable : (d.wakeup buf).wakeupFd.Readable := readable_wakeup
      exact hd.frame hflags rfl rfl fun _ => signalled_of_readable hreadable
  | @threadReturn n hbusy hskipped =>
      apply hd.frame hflags rfl rfl
      intro h
      refine h.setThread fun hqueued => ?_
      rw [wakesUp_of_foreign (hforeign n hqueued) hbusy] at hskipped
      cases hskipped

theorem noLostWakeup_run {actions : List (DispatcherAction τ)}
    (hinside : (machine τ buf owner others).EachStep QueuesInsideLoop
      (machine τ buf owner others).init actions)
    (hforeign : (machine τ buf owner others).EachStep QueuesForeign
      (machine τ buf owner others).init actions) :
    (machine τ buf owner others).Throughout NoLostWakeup (machine τ buf owner others).init
      actions := by
  refine (Machine.throughout_of_guarded (m := machine τ buf owner others)
    (I := fun d => d.WakeInv ∧ d.QueuedForeign)
    (G := fun d action => d.QueuesInsideLoop action ∧ d.QueuesForeign action) ?_
    ⟨wakeInv_new, nofun⟩ (hinside.and hforeign)).mono fun d hd => hd.1.noLostWakeup
  intro d action e hd hguard hstep
  exact ⟨hd.1.step hd.2 hguard.1 (step_cases hstep), hd.2.step hguard.2 (step_cases hstep)⟩

/-! ## Threads taken for the loop thread -/

/-- The loop thread blocks, and another thread queues a task. -/
def queuedWhileBlocked (n : ℕ) (task : τ) : List (DispatcherAction τ) :=
  [.loop, .setLooping, .resetQuit, .testQuit, .threadQueueInLoop n task, .threadReturn n]

theorem queuesInsideLoop_queuedWhileBlocked (n : ℕ) (task : τ) (d : Dispatcher τ) :
    (machine τ buf owner others).EachStep QueuesInsideLoop d (queuedWhileBlocked n task) :=
  Machine.eachStep_of_forall (by simp [queuedWhileBlocked, QueuesInsideLoop])

/-- The thread skips the wake-up, and the loop thread sleeps on the task. -/
theorem exec_queuedWhileBlocked {n : ℕ}
    (hsame : CureentThread.tid owner = CureentThread.tid (others n))
    (task : τ) : ∃ d : Dispatcher τ,
      (machine τ buf owner others).exec (machine τ buf owner others).init
        (queuedWhileBlocked n task) = some d ∧
      d.point = .selecting ∧ d.pendingFuncs = [task] ∧ d.wakeupFd = .new ∧
      ∀ m, d.threads m = .idle := by
  simp [queuedWhileBlocked, Machine.exec, machine, step, stepLoop, stepThread, new, setThread,
    pushBack, wakesUp, caller, Caller.of, hsame, LoopPoint.inUserCode]

theorem not_noLostWakeup {n : ℕ} (hsame : CureentThread.tid owner = CureentThread.tid (others n))
    (task : τ) : ¬ (machine τ buf owner others).Throughout NoLostWakeup
      (machine τ buf owner others).init (queuedWhileBlocked n task) := by
  intro hkept
  obtain ⟨d, hd, hpoint, hpending, hfd, hidle⟩ := exec_queuedWhileBlocked hsame task
  rcases hkept.last hd hpoint (by simp [hpending]) with hreadable | ⟨m, hm⟩
  · rw [hfd] at hreadable
    exact hreadable rfl
  · rw [hidle m] at hm
    cases hm

/-- **No lost wake-up.**  In every run in which the loop thread queues tasks from inside `Loop`
only, and no other thread that queues tasks is taken for the loop thread, it is never blocked
with pending tasks unless the eventfd is readable or another thread is between its `push_back`
and its `Wakeup`.  If there is a thread that is taken for it, there is a run in which it is. -/
theorem no_lost_wakeup_iff (buf : WakeupBuf) (owner : ThreadOrigin) (others : ℕ → ThreadOrigin)
    (task : τ) :
    (∀ actions : List (DispatcherAction τ),
      (machine τ buf owner others).EachStep QueuesInsideLoop
        (machine τ buf owner others).init actions →
      (machine τ buf owner others).EachStep QueuesForeign
        (machine τ buf owner others).init actions →
      (machine τ buf owner others).Throughout NoLostWakeup
        (machine τ buf owner others).init actions) ∧
    ((∀ actions : List (DispatcherAction τ),
      (machine τ buf owner others).EachStep QueuesInsideLoop
        (machine τ buf owner others).init actions →
      (machine τ buf owner others).Throughout NoLostWakeup
        (machine τ buf owner others).init actions) ↔
      ∀ n, CureentThread.tid owner ≠ CureentThread.tid (others n)) := by
  refine ⟨fun _ hinside hforeign => noLostWakeup_run hinside hforeign, ?_, ?_⟩
  · intro hall n hsame
    have hrun := hall _ (queuesInsideLoop_queuedWhileBlocked n task _)
    exact not_noLostWakeup hsame task hrun
  · intro hdistinct actions hinside
    apply noLostWakeup_run hinside
    refine Machine.eachStep_of_invariant (I := fun d => ∀ n, d.caller n = .foreign) ?_ ?_
      (fun n => Caller.of_eq_foreign_iff.mpr (hdistinct n)) actions
    · intro d action e hd hstep n
      rw [(step_cases hstep).caller_eq]
      exact hd n
    · intro d action e hd _
      cases action with
      | threadQueueInLoop n task => exact hd n
      | _ => trivial

/-- A dispatcher made in `main`, and a thread that is not one of `Thread`. -/
theorem wakeup_lost_unstarted :
    (machine ℕ ⟨4096, by decide, by decide⟩ .unstarted fun _ => .unstarted).EachStep
        QueuesInsideLoop
        (new .unstarted fun _ => .unstarted) (queuedWhileBlocked 0 1) ∧
      ¬ (machine ℕ ⟨4096, by decide, by decide⟩ .unstarted fun _ => .unstarted).Throughout
        NoLostWakeup (new .unstarted fun _ => .unstarted) (queuedWhileBlocked 0 1) :=
  ⟨queuesInsideLoop_queuedWhileBlocked 0 1 _, not_noLostWakeup (by rfl) 1⟩

end Dispatcher

end YxAlpha
