import YxAlpha.Reactor.Dispatcher

/-!
# The order of tasks

`QueueInLoop` appends to `pending_funcs_` under the mutex, and `ExecutePendingFuncs`
swaps the whole of it out under the mutex and runs it from the front.  So the tasks
that have been called, the rest of the batch and the pending tasks are, one after the
other, the tasks of all calls of `QueueInLoop` in their order (`InOrder`).

What is queued while a batch runs goes behind it: up to the next swap the batch is
what it was (`SameBatch`).
-/

namespace YxAlpha

namespace LoopPoint

variable {τ : Type*}

/-- The tasks of the local batch that have not been called. -/
def batch : LoopPoint τ → List τ
  | calling _ batch => batch
  | _ => []

end LoopPoint

namespace Dispatcher

variable {τ : Type*} {d e f : Dispatcher τ} {buf : WakeupBuf} {owner : ThreadOrigin}
  {others : ℕ → ThreadOrigin}

/-- The tasks that have been called, that are in the batch and that are pending. -/
def allTasks (d : Dispatcher τ) : List τ := d.executed ++ d.point.batch ++ d.pendingFuncs

/-- Called, swapped out and pending tasks are those `queued`, in this order. -/
def InOrder (queued : List τ) (d : Dispatcher τ) : Prop := d.allTasks = queued

/-- From `d` to `e` tasks may be called and `tasks` are queued, but none of these is put
into the batch. -/
structure SameBatch (tasks : List τ) (d e : Dispatcher τ) : Prop where
  batch : e.executed ++ e.point.batch = d.executed ++ d.point.batch
  queued : e.pendingFuncs = d.pendingFuncs ++ tasks

theorem SameBatch.refl (d : Dispatcher τ) : SameBatch [] d d :=
  ⟨rfl, (List.append_nil _).symm⟩

theorem SameBatch.trans {first second : List τ} (hde : SameBatch first d e)
    (hef : SameBatch second e f) : SameBatch (first ++ second) d f :=
  ⟨hef.batch.trans hde.batch, by rw [hef.queued, hde.queued, List.append_assoc]⟩

theorem SameBatch.allTasks_eq {tasks : List τ} (hde : SameBatch tasks d e) :
    e.allTasks = d.allTasks ++ tasks := by
  rw [allTasks, hde.batch, hde.queued, ← List.append_assoc, allTasks]

/-- A step that neither queues nor calls a task. -/
theorem SameBatch.of_eq (hpoint : e.point.batch = d.point.batch)
    (hexecuted : e.executed = d.executed)
    (hpending : e.pendingFuncs = d.pendingFuncs) : SameBatch [] d e :=
  ⟨by rw [hpoint, hexecuted], by rw [hpending, List.append_nil]⟩

theorem SameBatch.pushBack (task : τ) : SameBatch [task] d (d.pushBack task) := ⟨rfl, rfl⟩

/-! ## Steps -/

theorem SameBatch.stepLoop {action : DispatcherAction τ} (hd : d.FlagsKept)
    (haction : action ≠ .swapPendingFuncs) (hstep : LoopStep d action e) :
    SameBatch action.task?.toList d e := by
  cases hstep with
  | swapPendingFuncs => exact absurd rfl haction
  | queueInLoop => exact (SameBatch.pushBack _).trans (SameBatch.of_eq rfl rfl rfl)
  | loop huser hnot =>
      have hpoint := LoopPoint.eq_outside huser (hd.looping.symm.trans hnot)
      exact SameBatch.of_eq (by rw [hpoint]; rfl) rfl rfl
  | startTask hpoint =>
      refine ⟨?_, (List.append_nil _).symm⟩
      simp [hpoint, LoopPoint.batch]
  | loopFails | quitFails | quit => exact SameBatch.of_eq rfl rfl rfl
  | setLooping hpoint | resetQuit hpoint | leave hpoint | stay hpoint | select hpoint
  | startEvent hpoint | handleRead hpoint | finishEvent hpoint | enterPendingFuncs hpoint
  | finishTask hpoint | finishPendingFuncs hpoint =>
      exact SameBatch.of_eq (by rw [hpoint]; rfl) rfl rfl

theorem SameBatch.step {action : DispatcherAction τ} (hd : d.FlagsKept)
    (haction : action ≠ .swapPendingFuncs) (hstep : Step buf d action e) :
    SameBatch action.task?.toList d e := by
  cases hstep with
  | loop hself hloop => exact SameBatch.stepLoop hd haction hloop
  | threadQueueInLoop => exact (SameBatch.pushBack _).trans (SameBatch.of_eq rfl rfl rfl)
  | _ => exact SameBatch.of_eq rfl rfl rfl

/-- The swap puts the pending tasks where the batch was, which is empty. -/
theorem allTasks_step {action : DispatcherAction τ} (hd : d.FlagsKept)
    (hstep : Step buf d action e) : e.allTasks = d.allTasks ++ action.task?.toList := by
  by_cases haction : action = .swapPendingFuncs
  · subst haction
    cases hstep with
    | loop hself hloop =>
        cases hloop with
        | swapPendingFuncs hpoint =>
            have hbefore : d.allTasks = d.executed ++ d.pendingFuncs := by
              simp [allTasks, hpoint, LoopPoint.batch]
            rw [hbefore]
            rfl
  · exact (SameBatch.step hd haction hstep).allTasks_eq

theorem SameBatch.exec {actions : List (DispatcherAction τ)} (hd : d.FlagsKept)
    (hactions : ∀ action ∈ actions, action ≠ .swapPendingFuncs)
    (hrun : (machine τ buf owner others).exec d actions = some e) :
    SameBatch (tasksQueued actions) d e := by
  induction actions generalizing d with
  | nil =>
      cases hrun
      exact .refl _
  | cons action actions ih =>
      obtain ⟨f, hf, hrest⟩ := Option.bind_eq_some_iff.mp hrun
      rw [List.forall_mem_cons] at hactions
      have hstep := step_cases hf
      have hboth := (SameBatch.step hd hactions.1 hstep).trans (ih (hd.step hstep) hactions.2 hrest)
      rw [tasksQueued, List.filterMap_cons]
      cases htask : action.task? <;> simpa [htask, tasksQueued] using hboth

/-- **The order of tasks.**  At any moment of a run the tasks called so far, the rest of
the batch and the pending tasks are those of the calls of `QueueInLoop` in their order, and
up to the next swap no task that is queued is put into the batch. -/
theorem tasks_in_order {before during : List (DispatcherAction τ)}
    (hbefore : (machine τ buf owner others).exec (machine τ buf owner others).init before = some d)
    (hrun : (machine τ buf owner others).exec d during = some e) :
    d.InOrder (tasksQueued before) ∧
      ((∀ action ∈ during, action ≠ .swapPendingFuncs) → SameBatch (tasksQueued during) d e) := by
  have hinv (d e : Dispatcher τ) (action : DispatcherAction τ) (hd : d.FlagsKept)
      (hstep : (machine τ buf owner others).step d action = some e) : e.FlagsKept :=
    hd.step (step_cases hstep)
  have hd : d.FlagsKept := Machine.exec_invariant (fun d action e => hinv d e action)
    flagsKept_new hbefore
  refine ⟨?_, fun hduring => SameBatch.exec hd hduring hrun⟩
  exact Machine.log_eq_filterMap (I := FlagsKept) allTasks (fun d action e => hinv d e action)
    (fun _ _ _ hd hstep => allTasks_step hd (step_cases hstep)) flagsKept_new hbefore

/-- The task of another thread is swapped out. -/
def swapsOut : List (DispatcherAction ℕ) :=
  [.threadQueueInLoop 0 1, .loop, .setLooping, .resetQuit, .testQuit, .select [],
    .enterPendingFuncs, .swapPendingFuncs]

/-- It queues a task, and then the other thread gets to its wake-up. -/
def queuesNested : List (DispatcherAction ℕ) := [.startTask, .queueInLoop 2, .threadReturn 0]

theorem tasks_in_order_nested : ∃ d e : Dispatcher ℕ,
    (machine ℕ ⟨4096, by decide, by decide⟩ (.started 7) fun _ => .unstarted).exec
        (new (.started 7) fun _ => .unstarted) swapsOut = some d ∧
      (machine ℕ ⟨4096, by decide, by decide⟩ (.started 7) fun _ => .unstarted).exec d
        queuesNested = some e ∧
      d.InOrder [1] ∧ SameBatch [2] d e := by
  have hruns : ∃ d e : Dispatcher ℕ,
      (machine ℕ ⟨4096, by decide, by decide⟩ (.started 7) fun _ => .unstarted).exec
        (new (.started 7) fun _ => .unstarted) swapsOut = some d ∧
      (machine ℕ ⟨4096, by decide, by decide⟩ (.started 7) fun _ => .unstarted).exec d
        queuesNested = some e := ⟨_, _, rfl, rfl⟩
  obtain ⟨d, e, hbefore, hrun⟩ := hruns
  obtain ⟨horder, hbatch⟩ := tasks_in_order hbefore hrun
  exact ⟨d, e, hbefore, hrun, horder, hbatch (by simp [queuesNested])⟩

end Dispatcher

end YxAlpha
