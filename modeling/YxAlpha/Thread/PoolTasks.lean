import Mathlib.Data.List.ReduceOption
import YxAlpha.Thread.PoolInvariant

/-!
# What becomes of a task

`PushTask` runs the task itself or puts it into the queue, and it looks at
`worker_threads_` to decide.  The thread objects of a round stay there after `Stop`, so a
pool that has been stopped is not a pool that has not been started: what a caller gets from
an inactive pool depends on how many threads its last `Start` was asked for
(`inactive_inline_iff`).  An empty task that such a pool is given cannot be called.

A task in the queue is taken out once, in the order of the queue, and run by the worker that
took it.  What has been put into the queue is read off the calls of `PushTask` in the run
(`queuedBy`).  `TaskInv` has one equation for each worker, whatever is between `PopTask` and
the call in its hands.
-/

namespace YxAlpha

/-- The number of threads of the round that has begun last, `n` so far. -/
def PoolAction.threadsAfter {τ : Type*} (n : ℕ) : PoolAction τ → ℕ
  | .start numThreads => numThreads
  | _ => n

/-- The number of threads of the last `Start` of a history, zero before the first. -/
def threadsStarted {τ : Type*} (history : List (PoolAction τ)) : ℕ :=
  history.foldl PoolAction.threadsAfter 0

namespace ThreadPool

variable {M : ℕ} {τ : Type*} {s t u : ThreadPool M τ} {w v : ℕ} {point : WorkerPoint τ}

/-- The call of `PushTask` has run the task, has left nothing in the queue, and returns: it
neither sleeps nor throws. -/
structure RanInCaller (s t : ThreadPool M τ) (task : Option τ) : Prop where
  executed : ∃ called, task = some called ∧ t.inlined = s.inlined ++ [called]
  unqueued : t.queue = s.queue
  awake : t.condFull.waiters = s.condFull.waiters
  returned : t.thrown = s.thrown

/-- `PushTask` leaves its wait loop, and its assertion holds. -/
def Takes (s : ThreadPool M τ) : Prop :=
  (0 < M → s.queue.length < M) ∧ s.queue.length ≤ M

instance (s : ThreadPool M τ) : Decidable s.Takes := by unfold Takes; infer_instance

/-- The task of a call of `PushTask` that gets through to the queue. -/
def queuedBy (s : ThreadPool M τ) : PoolAction τ → ThreadPool M τ → List (Option τ)
  | .push task _, _ => if s.workers ≠ [] ∧ s.Takes then [task] else []
  | .resumePush _ task _, _ => if s.Takes then [task] else []
  | _, _ => []

/-- The tasks that worker `w` has taken out of the queue. -/
def takenBy (s : ThreadPool M τ) (w : ℕ) : List τ :=
  s.dequeued.filterMap fun taken => if taken.1 = w then taken.2 else none

/-- The tasks that worker `w` has run. -/
def ranBy (s : ThreadPool M τ) (w : ℕ) : List τ :=
  s.ran.filterMap fun run => if run.1 = w then some run.2 else none

/-- The task that worker `w` is about to run. -/
def inHand (s : ThreadPool M τ) (w : ℕ) : Option τ :=
  match s.pointOf w with
  | some (.calling task) => task
  | _ => none

/-- No task of those `queued` is lost, run twice or overtaken. -/
structure TasksKept [DecidableEq τ] (queued : List (Option τ)) (s : ThreadPool M τ) : Prop where
  queued : queued.reduceOption = (s.dequeued.map Prod.snd ++ s.queue).reduceOption
  ran : ∀ w, s.takenBy w = s.ranBy w ++ (s.inHand w).toList
  /-- A worker with a task runs it. -/
  runs : s.failed = false → ∀ w task, s.inHand w = some task →
    ∃ t, s.step (.call w) = some t ∧ t.ran = s.ran ++ [(w, task)]
  /-- When a round is over, what has been taken has been run. -/
  settled : s.failed = false → s.owner = .idle → s.running = false →
    ∀ w, s.takenBy w = s.ranBy w
  bounded : 0 < M → s.queue.length ≤ M

structure TaskInv (s : ThreadPool M τ) : Prop where
  ran : ∀ w, s.takenBy w = s.ranBy w ++ (s.inHand w).toList
  gone : s.owner = .destroyed → s.workers = []

theorem taskInv_new : (new : ThreadPool M τ).TaskInv where
  ran w := by simp [takenBy, ranBy, inHand, new, pointOf]
  gone h := by cases h

/-! ## Hands -/

theorem inHand_of_point (h : s.pointOf w = some point) (hidle : ∀ task, point ≠ .calling task) :
    s.inHand w = none := by
  rw [inHand, h]
  cases point with
  | calling task => exact absurd rfl (hidle task)
  | _ => rfl

theorem inHand_calling {task : Option τ} (h : s.pointOf w = some (.calling task)) :
    s.inHand w = task := by
  rw [inHand, h]

theorem inHand_congr (h : t.pointOf w = s.pointOf w) : t.inHand w = s.inHand w := by
  rw [inHand, inHand, h]

/-- Workers that have left have empty hands. -/
theorem inHand_of_exited (hexited : ∀ w p, s.pointOf w = some p → p = .exited) (w : ℕ) :
    s.inHand w = none := by
  cases hpoint : s.pointOf w with
  | none => rw [inHand, hpoint]
  | some p =>
      have hp := hexited w p hpoint
      exact inHand_of_point hpoint (by simp [hp])

theorem takenBy_dequeue {task : Option τ} {rest : List (Option τ)} :
    (s.dequeue w task rest).takenBy v = s.takenBy v ++ (if v = w then task else none).toList := by
  have hone : ([(w, task)] : List (ℕ × Option τ)).filterMap
      (fun taken => if taken.1 = v then taken.2 else none) =
      (if v = w then task else none).toList := by
    by_cases hv : v = w
    · subst hv
      cases task <;> simp
    · simp [hv, Ne.symm hv]
  rw [← hone]
  exact List.filterMap_append

theorem ranBy_call {task : Option τ} :
    (s.call w task).ranBy v = s.ranBy v ++ (if v = w then task else none).toList := by
  have hone : (task.map fun x => (w, x)).toList.filterMap
      (fun run => if run.1 = v then some run.2 else none) =
      (if v = w then task else none).toList := by
    by_cases hv : v = w
    · subst hv
      cases task <;> simp
    · cases task <;> simp [hv, Ne.symm hv]
  rw [← hone]
  exact List.filterMap_append

/-! ## The queue -/

/-- What has been taken out of the queue, and what is in it. -/
def throughQueue (s : ThreadPool M τ) : List (Option τ) := s.dequeued.map Prod.snd ++ s.queue

theorem throughQueue_pushTask {task : Option τ} {woken : Multiset ℕ}
    (hpush : s.pushTask task woken = some t) :
    t.throughQueue = s.throughQueue ++ if s.Takes then [task] else [] := by
  unfold ThreadPool.pushTask at hpush
  split at hpush
  · rename_i hfull
    cases hpush
    rw [if_neg fun h => Nat.not_lt.mpr hfull.2 (h.1 hfull.1), List.append_nil]
    rfl
  · rename_i hfull
    split at hpush
    · rename_i hsize
      split at hpush <;> cases hpush
      rw [if_pos ⟨fun hM => by omega, hsize⟩]
      exact (List.append_assoc _ _ _).symm
    · rename_i hsize
      cases hpush
      rw [if_neg fun h => hsize h.2, List.append_nil]
      rfl

/-! ## Steps -/

theorem length_workers_setPoint : (s.setPoint w point).workers.length = s.workers.length :=
  List.length_modify ..

/-- A step that neither takes a task nor runs one. -/
theorem TaskInv.keep (hs : s.TaskInv) (hdequeued : t.dequeued = s.dequeued) (hran : t.ran = s.ran)
    (hhand : ∀ w, t.inHand w = s.inHand w) (hgone : t.owner = .destroyed → t.workers = []) :
    t.TaskInv where
  ran w := by
    rw [takenBy, ranBy, hdequeued, hran, hhand]
    exact hs.ran w
  gone := hgone

/-- A worker that comes to a point with empty hands, from one with empty hands. -/
theorem TaskInv.move (hs : s.TaskInv) (hmoved : Moved s t w point)
    (hdequeued : t.dequeued = s.dequeued) (hran : t.ran = s.ran)
    (hbefore : s.inHand w = none) (hafter : ∀ task, point ≠ .calling (some task))
    (howner : s.owner ≠ .destroyed) : t.TaskInv := by
  apply hs.keep hdequeued hran
  · intro v
    by_cases hv : v = w
    · rw [hv, hbefore, inHand, hmoved.self]
      cases point with
      | calling task =>
          cases task with
          | none => rfl
          | some task => exact absurd rfl (hafter task)
      | _ => rfl
    · exact inHand_congr (hmoved.other v hv)
  · intro h
    rw [hmoved.owner] at h
    exact absurd h howner

theorem TaskInv.pushTask {task : Option τ} {woken : Multiset ℕ} (hs : s.TaskInv)
    (hpush : s.pushTask task woken = some t) : t.TaskInv := by
  rcases pushTask_cases hpush with ⟨-, -, rfl⟩ | ⟨-, condEmpty, -, rfl⟩ | ⟨-, -, rfl⟩ <;>
    exact { hs with }

/-- A call on a pool with thread objects queues the task or sleeps. -/
theorem not_ranInCaller {task : Option τ} {woken : Multiset ℕ}
    (hpush : s.pushTask task woken = some t) : ¬ s.RanInCaller t task := by
  intro hran
  have hinlined : t.inlined = s.inlined := by
    rcases pushTask_cases hpush with ⟨-, -, rfl⟩ | ⟨-, condEmpty, -, rfl⟩ | ⟨-, -, rfl⟩ <;> rfl
  obtain ⟨called, -, hexecuted⟩ := hran.executed
  have hlength := congrArg List.length hexecuted
  simp [hinlined] at hlength

/-- A call on a pool without thread objects runs a task that can be called. -/
theorem ranInCaller_callInline {task : Option τ} :
    s.RanInCaller (s.callInline task) task ↔ task ≠ none := by
  cases task with
  | none =>
      exact iff_of_false (fun hran => by obtain ⟨_, h, -⟩ := hran.executed; cases h) (absurd rfl)
  | some called =>
      exact iff_of_true ⟨⟨called, rfl, rfl⟩, rfl, rfl, rfl⟩ (Option.some_ne_none called)

/-- When all workers have left, new ones can take their places. -/
theorem TaskInv.restart (hs : s.TaskInv) (hexited : ∀ w p, s.pointOf w = some p → p = .exited)
    (hdequeued : t.dequeued = s.dequeued) (hran : t.ran = s.ran) (hnew : ∀ w, t.inHand w = none)
    (hgone : t.owner = .destroyed → t.workers = []) : t.TaskInv :=
  hs.keep hdequeued hran (fun w => (hnew w).trans (inHand_of_exited hexited w).symm) hgone

theorem TaskInv.destroyed (hs : s.TaskInv)
    (hexited : ∀ w p, s.pointOf w = some p → p = .exited) : s.destroyed.TaskInv :=
  hs.restart hexited rfl rfl (fun w => by simp [inHand, pointOf, ThreadPool.destroyed])
    fun _ => rfl

theorem TaskInv.start {numThreads : ℕ} (hs : s.TaskInv) (hlife : s.LifeInv)
    (howner : s.owner = .idle) : (s.start numThreads).TaskInv := by
  unfold ThreadPool.start
  split
  · exact { hs with }
  · rename_i hrunning
    rw [Bool.not_eq_true] at hrunning
    refine hs.restart (hlife.stopped howner hrunning) rfl rfl ?_ ?_
    · intro w
      unfold inHand
      rw [pointOf_start rfl]
      by_cases hw : w < numThreads <;> simp [hw]
    · intro h
      rw [show s.owner = .destroyed from h] at howner
      cases howner

theorem TaskInv.join {next : ℕ} {last : Bool} (hs : s.TaskInv) (hlife : s.LifeInv)
    (howner : s.owner = .joining next last) (hjoin : s.join next last = some t) : t.TaskInv := by
  rcases join_cases hjoin with ⟨hnone, rfl⟩ | ⟨worker, hworker, ⟨-, rfl⟩ | ⟨thread, -, -, rfl⟩⟩
  · split
    · exact hs.destroyed (hlife.exited_of_joined howner hnone)
    · exact { hs with gone := nofun }
  · exact { hs with }
  · exact hs.keep rfl rfl (fun w => inHand_congr (pointOf_joined hworker)) nofun

theorem TaskInv.call {task : Option τ} (hs : s.TaskInv)
    (hpoint : s.pointOf w = some (.calling task)) (howner : s.owner ≠ .destroyed) :
    (s.call w task).TaskInv := by
  have hin : s.pointOf w ≠ none := by simp [hpoint]
  have hmoved : Moved s (s.call w task) w .testing :=
    { moved_setPoint (s := { s with ran := s.ran ++ (task.map (w, ·)).toList }) hin with }
  refine ⟨?_, fun h => absurd h howner⟩
  intro v
  show s.takenBy v = _
  rw [ranBy_call, hs.ran v]
  by_cases hv : v = w
  · subst hv
    rw [inHand_calling hpoint, inHand_of_point hmoved.self nofun]
    simp
  · rw [if_neg hv, inHand_congr (hmoved.other v hv)]
    simp

variable [DecidableEq τ]

/-- The task that is taken goes to the hands of the worker. -/
theorem TaskInv.popTask {woken : Multiset (Option τ)} (hs : s.TaskInv) (hin : s.pointOf w ≠ none)
    (hempty : s.inHand w = none) (howner : s.owner ≠ .destroyed)
    (hpop : s.popTask w woken = some t) : t.TaskInv := by
  rcases popTask_cases hpop with
    ⟨-, -, rfl⟩ | ⟨-, -, rfl⟩ | ⟨task, rest, hqueue, -, condFull, -, rfl⟩ | ⟨-, rfl⟩
  · exact hs.move (moved_setEmpty hin) rfl rfl hempty nofun howner
  · exact hs.move (moved_setPoint hin) rfl rfl hempty nofun howner
  · have hmoved : Moved ((s.dequeue w task rest).setFull condFull)
        (((s.dequeue w task rest).setFull condFull).setPoint w (.calling task)) w (.calling task) :=
      moved_setPoint hin
    refine ⟨?_, fun h => absurd h howner⟩
    intro v
    show (s.dequeue w task rest).takenBy v = s.ranBy v ++ _
    rw [takenBy_dequeue, hs.ran v]
    by_cases hv : v = w
    · subst hv
      rw [hempty, inHand_calling hmoved.self]
      simp
    · rw [if_neg hv, inHand_congr (hmoved.other v hv)]
      show s.ranBy v ++ (s.inHand v).toList ++ _ = s.ranBy v ++ (s.inHand v).toList
      simp
  · exact { hs with }

theorem TaskInv.step {action : PoolAction τ} (hs : s.TaskInv) (hworkers : s.WorkerInv)
    (hstep : s.step action = some t) : t.TaskInv := by
  obtain ⟨-, howner, hmove⟩ := step_cases hstep
  have hlife := hworkers.toLifeInv
  cases hmove with
  | start hidle => exact hs.start hlife hidle
  | stop | destroyRunning => exact { hs with gone := nofun }
  | destroy hidle hrunning => exact hs.destroyed (hlife.stopped hidle hrunning)
  | join hjoining hjoin => exact hs.join hlife hjoining hjoin
  | runInline => exact { hs with }
  | push hne hpush => exact hs.pushTask hpush
  | resumePush hresume hpush =>
      rename_i condFull
      exact TaskInv.pushTask (s := s.setFull condFull) { hs with } hpush
  | test hpoint =>
      apply hs.move (moved_setPoint (by simp [hpoint])) rfl rfl (inHand_of_point hpoint nofun) ?_
        howner
      intro task
      split <;> simp
  | pop hpoint hpop =>
      exact hs.popTask (by simp [hpoint]) (inHand_of_point hpoint nofun) howner hpop
  | resumePop hresume hpop =>
      rename_i w woken condEmpty
      obtain ⟨hpoint, -⟩ := hworkers.resume hresume
      have hin : (s.setEmpty condEmpty).pointOf w ≠ none := by
        show s.pointOf w ≠ none
        simp [hpoint]
      exact TaskInv.popTask (s := s.setEmpty condEmpty) { hs with } hin
        (inHand_of_point (s := s) hpoint nofun) howner hpop
  | call hpoint => exact hs.call hpoint howner

/-! ## What goes into the queue -/

theorem throughQueue_popTask {woken : Multiset (Option τ)} (hpop : s.popTask w woken = some t) :
    t.throughQueue = s.throughQueue := by
  rcases popTask_cases hpop with
    ⟨-, -, rfl⟩ | ⟨-, -, rfl⟩ | ⟨task, rest, hqueue, -, condFull, -, rfl⟩ | ⟨-, rfl⟩
  · rfl
  · rfl
  · show (s.dequeued ++ [(w, task)]).map Prod.snd ++ rest = s.dequeued.map Prod.snd ++ s.queue
    rw [hqueue, List.map_append, List.append_assoc]
    rfl
  · rfl

/-- A step puts into the queue what its call of `PushTask` has. -/
theorem throughQueue_step {action : PoolAction τ} (hstep : s.step action = some t) :
    t.throughQueue = s.throughQueue ++ s.queuedBy action t := by
  have hsame : t.throughQueue = s.throughQueue →
      t.throughQueue = s.throughQueue ++ [] := fun h => h.trans (List.append_nil _).symm
  obtain ⟨-, -, hmove⟩ := step_cases hstep
  cases hmove with
  | start =>
      apply hsame
      unfold ThreadPool.start
      split <;> rfl
  | join howner hjoin =>
      apply hsame
      rcases join_cases hjoin with ⟨-, rfl⟩ | ⟨worker, -, ⟨-, rfl⟩ | ⟨thread, -, -, rfl⟩⟩
      · split <;> rfl
      · rfl
      · rfl
  | runInline hworkers =>
      rw [queuedBy, if_neg fun h => h.1 hworkers]
      exact hsame rfl
  | push hworkers hpush =>
      rw [throughQueue_pushTask hpush]
      simp only [queuedBy, hworkers, ne_eq, not_false_eq_true, true_and]
  | resumePush hresume hpush =>
      rename_i condFull
      exact throughQueue_pushTask (s := s.setFull condFull) hpush
  | pop hpoint hpop => exact hsame (throughQueue_popTask hpop)
  | resumePop hresume hpop =>
      rename_i condEmpty
      exact hsame (throughQueue_popTask (s := s.setEmpty condEmpty) hpop)
  | _ => exact hsame rfl

/-! ## The threads of the last round -/

/-- While the pool goes on, its threads are those of the last `Start`. -/
theorem length_workers_step {action : PoolAction τ} (hstep : s.step action = some t) :
    t.failed = true ∨ t.owner = .destroyed ∨
      t.workers.length = action.threadsAfter s.workers.length := by
  obtain ⟨-, -, hmove⟩ := step_cases hstep
  cases hmove with
  | start =>
      unfold ThreadPool.start
      split
      · exact Or.inl rfl
      · exact Or.inr (Or.inr List.length_replicate)
  | destroy => exact Or.inr (Or.inl rfl)
  | join howner hjoin =>
      rcases join_cases hjoin with ⟨-, rfl⟩ | ⟨worker, -, ⟨-, rfl⟩ | ⟨thread, -, -, rfl⟩⟩
      · split
        · exact Or.inr (Or.inl rfl)
        · exact Or.inr (Or.inr rfl)
      · exact Or.inl rfl
      · exact Or.inr (Or.inr List.length_set)
  | push hne hpush | resumePush hresume hpush =>
      rcases pushTask_cases hpush with ⟨-, -, rfl⟩ | ⟨-, condEmpty, -, rfl⟩ | ⟨-, -, rfl⟩
      · exact Or.inr (Or.inr rfl)
      · exact Or.inr (Or.inr rfl)
      · exact Or.inl rfl
  | pop hpoint hpop | resumePop hpoint hpop =>
      rcases popTask_cases hpop with
        ⟨-, -, rfl⟩ | ⟨-, -, rfl⟩ | ⟨task, rest, -, -, condFull, -, rfl⟩ | ⟨-, rfl⟩
      · exact Or.inr (Or.inr length_workers_setPoint)
      · exact Or.inr (Or.inr length_workers_setPoint)
      · exact Or.inr (Or.inr length_workers_setPoint)
      · exact Or.inl rfl
  | test | call => exact Or.inr (Or.inr length_workers_setPoint)
  | _ => exact Or.inr (Or.inr rfl)

theorem length_workers_exec {actions : List (PoolAction τ)}
    (hrun : (machine M τ).exec s actions = some t) (hasserts : t.failed = false)
    (howner : t.owner ≠ .destroyed) :
    t.workers.length = actions.foldl PoolAction.threadsAfter s.workers.length := by
  induction actions generalizing s with
  | nil =>
      cases hrun
      rfl
  | cons action actions ih =>
      obtain ⟨u, hu, hrest⟩ := Option.bind_eq_some_iff.mp hrun
      -- the pool goes on behind the step: another follows, or the run ends in `t`
      have hgoes : u.failed = false ∧ u.owner ≠ .destroyed := by
        cases actions with
        | nil =>
            cases hrest
            exact ⟨hasserts, howner⟩
        | cons next actions =>
            obtain ⟨v, hv, -⟩ := Option.bind_eq_some_iff.mp hrest
            exact ⟨(step_cases hv).1, (step_cases hv).2.1⟩
      have hlength : u.workers.length = action.threadsAfter s.workers.length := by
        rcases length_workers_step hu with h | h | h
        · simp [hgoes.1] at h
        · exact absurd h hgoes.2
        · exact h
      rw [ih hrest, hlength, List.foldl_cons]

/-- **When an inactive pool runs a task in the caller**: after every history, and whether the
pool is running or not, exactly if the last `Start` was asked for no thread and the task is not
empty. -/
theorem inactive_inline_iff {history : List (PoolAction τ)} {task : Option τ}
    {woken : Multiset ℕ} (hrun : (machine M τ).exec (machine M τ).init history = some s)
    (hpush : s.step (.push task woken) = some t) :
    s.RanInCaller t task ↔ threadsStarted history = 0 ∧ task ≠ none := by
  obtain ⟨hasserts, howner, hmove⟩ := step_cases hpush
  have hlength : s.workers.length = threadsStarted history :=
    length_workers_exec hrun hasserts howner
  rw [← hlength, List.length_eq_zero_iff]
  cases hmove with
  | runInline hworkers => rw [ranInCaller_callInline, and_iff_right hworkers]
  | push hworkers hpush => exact iff_of_false (not_ranInCaller hpush) fun h => hworkers h.1

theorem inactive_inline_iff_noThreads : ∃ s : ThreadPool 1 ℕ,
    (machine 1 ℕ).exec (machine 1 ℕ).init [.start 0, .stop, .join] = some s ∧
      s.running = false ∧ (s.step (.push (some 7) 0)).isSome ∧
        ∀ t, s.step (.push (some 7) 0) = some t → s.RanInCaller t (some 7) := by
  have hrun : (machine 1 ℕ).exec (machine 1 ℕ).init [.start 0, .stop, .join] = some _ := rfl
  refine ⟨_, hrun, rfl, rfl, ?_⟩
  intro t hpush
  exact (inactive_inline_iff hrun hpush).mpr ⟨rfl, Option.some_ne_none 7⟩

/-- A pool of one place and one thread, stopped: a first task is left in the queue, and the
caller of a second sleeps behind it. -/
theorem stopped_parks : ∃ s t u : ThreadPool 1 ℕ,
    (machine 1 ℕ).exec (machine 1 ℕ).init [.start 1, .stop, .test 0, .join, .join] = some s ∧
      s.running = false ∧
      s.step (.push (some 7) 0) = some t ∧ t.queue = [some 7] ∧ ¬ s.RanInCaller t (some 7) ∧
      t.step (.push (some 8) 0) = some u ∧ u.condFull.asleep = {some 8} ∧
        ¬ t.RanInCaller u (some 8) := by
  refine ⟨_, _, _, rfl, rfl, rfl, rfl, ?_, rfl, rfl, ?_⟩
  · intro h
    cases h.unqueued
  · intro h
    obtain ⟨called, -, hexecuted⟩ := h.executed
    cases hexecuted

/-! ## Runs -/

theorem TaskInv.tasksKept {queued : List (Option τ)} (hs : s.TaskInv) (hqueue : s.QueueInv)
    (hlife : s.failed = false → s.LifeInv) (hqueued : s.throughQueue = queued) :
    s.TasksKept queued where
  queued := congrArg List.reduceOption hqueued.symm
  ran := hs.ran
  runs hasserts w task hhand := by
    have hpoint : s.pointOf w = some (.calling (some task)) := by
      unfold inHand at hhand
      split at hhand
      · rename_i taken hpoint
        rw [hpoint, hhand]
      · cases hhand
    have howner : s.owner ≠ .destroyed := by
      intro h
      simp [pointOf, hs.gone h] at hpoint
    refine ⟨s.call w (some task), ?_, rfl⟩
    rw [ThreadPool.step, if_neg (by simp [hasserts, howner])]
    simp [hpoint]
  settled hasserts howner hrunning w := by
    rw [hs.ran w, inHand_of_exited ((hlife hasserts).stopped howner hrunning)]
    exact List.append_nil _
  bounded := hqueue.size

/-- **No task is lost, repeated or overtaken**, in every run of producers, workers and rounds:
of those that the calls of `PushTask` in the run have put into the queue. -/
theorem tasks_kept {actions : List (PoolAction τ)}
    (hrun : (machine M τ).exec (machine M τ).init actions = some s) :
    s.TasksKept ((machine M τ).observed queuedBy (machine M τ).init actions) := by
  have hqueued := Machine.log_eq_observed (m := machine M τ) (I := fun _ => True) throughQueue
    (fun _ _ _ _ _ => trivial) (fun _ _ _ _ hstep => throughQueue_step hstep) trivial hrun
  have hinv := Machine.exec_invariant (m := machine M τ)
    (I := fun s => s.TaskInv ∧ s.QueueInv ∧ (s.failed = false → s.WorkerInv)) ?_
    ⟨taskInv_new, queueInv_new, fun _ => workerInv_new⟩ hrun
  · obtain ⟨htasks, hqueue, hworkers⟩ := hinv
    exact htasks.tasksKept hqueue (fun hasserts => (hworkers hasserts).toLifeInv) hqueued
  · rintro s action t ⟨htasks, hqueue, hworkers⟩ hstep
    have hbefore := hworkers (step_cases hstep).1
    refine ⟨htasks.step hbefore hstep, hqueue.step hstep, ?_⟩
    intro hasserts
    exact hbefore.step (fun hfailed => by simp [hasserts] at hfailed) hstep

/-- A round with an empty task and a producer that waits for room, and a second one. -/
def twoRounds : List (PoolAction ℕ) :=
  [.start 1, .push none 0, .push (some 1) 0, .test 0, .pop 0 {some 1},
    .resumePush .signalled (some 1) 0, .call 0, .stop, .test 0, .join, .join, .start 1, .test 0,
    .pop 0 0, .call 0]

theorem tasks_kept_twoRounds : ∃ s : ThreadPool 1 ℕ,
    (machine 1 ℕ).exec (machine 1 ℕ).init twoRounds = some s ∧ s.ran = [(0, 1)] ∧
      (machine 1 ℕ).observed queuedBy (machine 1 ℕ).init twoRounds = [none, some 1] ∧
        s.TasksKept [none, some 1] := by
  have hrun : (machine 1 ℕ).exec (machine 1 ℕ).init twoRounds = some _ := rfl
  exact ⟨_, hrun, rfl, rfl, tasks_kept hrun⟩

end ThreadPool

end YxAlpha
