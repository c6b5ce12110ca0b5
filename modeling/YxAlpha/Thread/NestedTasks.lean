import Mathlib.Data.Finset.Card
import YxAlpha.Thread.PoolWakeup

/-!
# Tasks that push tasks

A task may call `PushTask` of the pool that runs it.  If that call sleeps on `cond_full_`, the
worker sleeps with it.  `author` says which worker has pushed a task, if any; `Nests` keeps a
worker to what its thread can do: it pushes only while it runs a task, and as long as a call
of it sleeps, neither pushes again nor comes back from the task.

A running pool in which no thread can go on is idle or deadlocked: its queue is full, and
every worker sleeps in a call of `PushTask` of its own task.  Neither a wake-up nor `Stop`
ends a deadlock (`deadlock_exact`).
-/

namespace YxAlpha

namespace ThreadPool

variable {M : ℕ} {τ : Type*}

/-- The task that a worker has been given, and has not come back from. -/
def runningTask (s : ThreadPool M τ) (w : ℕ) : Option τ :=
  match s.pointOf w with
  | some (.calling task) => task
  | _ => none

section

variable (author : τ → Option ℕ) (s : ThreadPool M τ)

/-- A call of `PushTask` in the task of the worker sleeps on `cond_full_`. -/
def Blocked (w : ℕ) : Prop := ∃ task ∈ s.condFull.waiters, task.bind author = some w

instance (w : ℕ) : Decidable (s.Blocked author w) :=
  Multiset.decidableExistsMultiset

/-- What the threads of the workers can do. -/
def Nests : PoolAction τ → Prop
  | .push task _ => ∀ w ∈ task.bind author, (s.runningTask w).isSome ∧ ¬ s.Blocked author w
  | .call w => ¬ s.Blocked author w
  | _ => True

instance : DecidablePred (s.Nests author)
  | .push task _ =>
      inferInstanceAs (Decidable (∀ w ∈ task.bind author,
        (s.runningTask w).isSome ∧ ¬ s.Blocked author w))
  | .call w => inferInstanceAs (Decidable (¬ s.Blocked author w))
  | .start _ | .stop | .destroy | .join | .resumePush .. | .test _ | .pop .. | .resumePop .. =>
      isTrue trivial

/-- There is nothing to do. -/
structure Idle : Prop where
  queue : s.queue = []
  producers : s.condFull.waiters = 0
  asleep : ∀ w < s.workers.length, w ∈ s.condEmpty.asleep

structure Deadlocked : Prop where
  full : M ≤ s.queue.length
  workers : s.workers ≠ []
  blocked : ∀ w < s.workers.length, s.Blocked author w

/-- `t` is a later state of a pool in which nothing has gone on since `s`. -/
structure Frozen (t : ThreadPool M τ) : Prop where
  deadlocked : t.Deadlocked author
  queue : t.queue = s.queue
  dequeued : t.dequeued = s.dequeued
  ran : t.ran = s.ran
  /-- A call of `Stop` does not return. -/
  joining : ∀ next last, s.owner = .joining next last → t.owner = s.owner

end

section

variable [DecidableEq τ] (author : τ → Option ℕ)

def nestedStep (s : ThreadPool M τ) (action : PoolAction τ) : Option (ThreadPool M τ) :=
  if s.Nests author action then s.step action else none

def nestedMachine (M : ℕ) (author : τ → Option ℕ) : Machine (ThreadPool M τ) (PoolAction τ) where
  init := new
  step := nestedStep author

structure DeadlockExact (s : ThreadPool M τ) : Prop where
  /-- No thread can go on by itself. -/
  stuck : s.Running → ((∀ action : PoolAction τ, action.Own → s.nestedStep author action = none) ↔
    s.Idle ∨ s.Deadlocked author ∧ s.condFull.signalled = 0)
  /-- Nothing ends a deadlock. -/
  forever : s.Deadlocked author → ∀ actions t,
    (nestedMachine M author).exec s actions = some t → Frozen author s t
  /-- It takes a full queue, and for each worker a call that sleeps. -/
  size : s.Deadlocked author → M + s.workers.length ≤ s.queue.length + s.condFull.waiters.card

end

variable {author : τ → Option ℕ} {s t : ThreadPool M τ} {w v : ℕ} {point : WorkerPoint τ}

/-! ## Blocked workers -/

theorem pointOf_isSome : (s.pointOf w).isSome ↔ w < s.workers.length := by
  simp [pointOf]

theorem runningTask_eq_some {task : τ} :
    s.runningTask w = some task ↔ s.pointOf w = some (.calling (some task)) := by
  unfold runningTask
  split
  · rename_i running hpoint
    simp [hpoint]
  · rename_i hnot
    simp only [reduceCtorEq, false_iff]
    exact hnot (some task)

theorem blocked_congr (h : t.condFull.waiters = s.condFull.waiters) :
    t.Blocked author w ↔ s.Blocked author w := by
  rw [Blocked, Blocked, h]

theorem blocked_wait {task : Option τ} :
    (s.setFull (s.condFull.wait task)).Blocked author w ↔
      task.bind author = some w ∨ s.Blocked author w := by
  show (∃ task' ∈ (s.condFull.wait task).waiters, _) ↔ _
  simp [Condition.waiters_wait, Blocked]

theorem nests_of_own {action : PoolAction τ} (hown : action.Own)
    (hfree : ∀ w, action.worker = some w → ¬ s.Blocked author w) : s.Nests author action := by
  cases action with
  | call w => exact hfree w rfl
  | push => exact hown.elim
  | _ => trivial

/-! ## Invariants -/

/-- A worker sleeps in a call of its task only. -/
def Calling (author : τ → Option ℕ) (s : ThreadPool M τ) : Prop :=
  ∀ w, s.Blocked author w → (s.runningTask w).isSome

/-- Beside a worker that is asleep, each task in the queue has a worker of its own that has
been signalled or is on the way to the queue. -/
def Signals (s : ThreadPool M τ) : Prop :=
  s.running = true → s.condEmpty.asleep ≠ 0 →
    ∃ awake : Finset ℕ, (∀ w ∈ awake, s.pointOf w = some .testing ∨ s.pointOf w = some .popping) ∧
      s.queue.length ≤ s.condEmpty.signalled.card + awake.card

/-- The invariants of a pool whose tasks push. -/
structure Nested (author : τ → Option ℕ) (s : ThreadPool M τ) : Prop where
  queue : s.QueueInv
  workers : s.WorkerInv
  signals : s.Signals
  calling : s.Calling author

theorem nested_new : (new : ThreadPool M τ).Nested author where
  queue := queueInv_new
  workers := workerInv_new
  signals := nofun
  calling w hw := by simp [Blocked, new, Condition.new, Condition.waiters] at hw

/-! ## Calls -/

/-- A worker that is not in a task, or in a call of its task, goes to another point. -/
theorem Calling.setPoint (hs : s.Calling author)
    (hfree : s.runningTask w = none ∨ ¬ s.Blocked author w) :
    (s.setPoint w point).Calling author := by
  intro v hv
  have hcalling := hs v hv
  have hvw : v ≠ w := by
    rintro rfl
    rcases hfree with hnone | hfree
    · simp [hnone] at hcalling
    · exact hfree hv
  unfold runningTask at hcalling ⊢
  rwa [pointOf_setPoint_ne hvw]

theorem Calling.pushTask {task : Option τ} {woken : Multiset ℕ} (hs : s.Calling author)
    (hpusher : ∀ w, task.bind author = some w → (s.runningTask w).isSome)
    (hpush : s.pushTask task woken = some t) : t.Calling author := by
  rcases pushTask_cases hpush with ⟨-, -, rfl⟩ | ⟨-, condEmpty, -, rfl⟩ | ⟨-, -, rfl⟩
  · intro w hw
    exact (blocked_wait.mp hw).elim (hpusher w) (hs w)
  · exact hs
  · exact hs

theorem Calling.exists_task (hs : s.Calling author) (hw : s.Blocked author w) :
    ∃ task, s.pointOf w = some (.calling (some task)) := by
  obtain ⟨task, htask⟩ := Option.isSome_iff_exists.mp (hs w hw)
  exact ⟨task, runningTask_eq_some.mp htask⟩

theorem Calling.not_blocked {p : WorkerPoint τ} (hs : s.Calling author)
    (hpoint : s.pointOf w = some p) (hp : ∀ task, p ≠ .calling (some task)) :
    ¬ s.Blocked author w := by
  intro hw
  obtain ⟨task, htask⟩ := hs.exists_task hw
  exact hp task (Option.some.inj (hpoint.symm.trans htask))

/-- Where all workers have left nobody is blocked. -/
theorem Calling.not_blocked_of_exited (hs : s.Calling author)
    (hexited : ∀ w p, s.pointOf w = some p → p = .exited) : ¬ s.Blocked author w := by
  intro hw
  obtain ⟨task, htask⟩ := hs.exists_task hw
  cases hexited w _ htask

/-! ## Signals -/

theorem Signals.setPoint {p : WorkerPoint τ} (hs : s.Signals) (hpoint : s.pointOf w = some p)
    (hstays : p = .testing ∨ p = .popping → s.running = true →
      point = .testing ∨ point = .popping) :
    (s.setPoint w point).Signals := by
  intro hrunning hasleep
  obtain ⟨awake, hawake, hsize⟩ := hs hrunning hasleep
  refine ⟨awake, ?_, hsize⟩
  intro v hv
  by_cases hvw : v = w
  · rw [hvw, pointOf_setPoint_self (by simp [hpoint]), Option.some_inj, Option.some_inj]
    apply hstays _ hrunning
    simpa [hvw, hpoint] using hawake v hv
  · rw [pointOf_setPoint_ne hvw]
    exact hawake v hv

theorem Signals.pushTask {task : Option τ} {woken : Multiset ℕ} (hs : s.Signals)
    (hpush : s.pushTask task woken = some t) : t.Signals := by
  rcases pushTask_cases hpush with ⟨-, -, rfl⟩ | ⟨-, condEmpty, hnotify, rfl⟩ | ⟨-, -, rfl⟩
  · exact hs
  · intro hrunning hasleep
    -- somebody was asleep, and has been signalled
    have hbefore : s.condEmpty.asleep ≠ 0 :=
      Condition.asleep_ne_zero_of_le (Condition.asleep_notify_le hnotify) hasleep
    obtain ⟨awake, hawake, hsize⟩ := hs hrunning hbefore
    refine ⟨awake, hawake, ?_⟩
    have hsignalled := Condition.card_signalled_notify hnotify hbefore
    show (s.queue ++ [task]).length ≤ condEmpty.signalled.card + awake.card
    rw [List.length_append, List.length_singleton]
    omega
  · exact hs

/-! ## Deadlocks -/

theorem Deadlocked.atTask (hdead : s.Deadlocked author) (hs : s.Calling author)
    {p : WorkerPoint τ} (hpoint : s.pointOf w = some p) : ∃ task, p = .calling (some task) := by
  have hlt : w < s.workers.length := pointOf_isSome.mp (by simp [hpoint])
  obtain ⟨task, htask⟩ := hs.exists_task (hdead.blocked w hlt)
  exact ⟨task, Option.some.inj (hpoint.symm.trans htask)⟩

theorem Deadlocked.not_exited (hdead : s.Deadlocked author) (hs : s.Calling author) :
    ¬ ∀ w p, s.pointOf w = some p → p = .exited := by
  intro hexited
  have hblocked := hdead.blocked 0 (List.length_pos_of_ne_nil hdead.workers)
  exact hs.not_blocked_of_exited hexited hblocked

theorem pushTask_full {task : Option τ} {woken : Multiset ℕ} (hM : 0 < M)
    (hfull : M ≤ s.queue.length) (hpush : s.pushTask task woken = some t) :
    t = s.setFull (s.condFull.wait task) := by
  rcases pushTask_cases hpush with ⟨-, -, rfl⟩ | ⟨hlt, -⟩ | ⟨hzero, -⟩
  · rfl
  · exact absurd (hlt hM) (Nat.not_lt_of_le hfull)
  · omega

/-- Waiters are added, and none is lost. -/
theorem Deadlocked.mono (hdead : s.Deadlocked author) {condFull : Condition (Option τ)}
    (hsub : s.condFull.waiters ⊆ condFull.waiters) : (s.setFull condFull).Deadlocked author where
  full := hdead.full
  workers := hdead.workers
  blocked w hw := by
    obtain ⟨task, htask, hauthor⟩ := hdead.blocked w hw
    exact ⟨task, hsub htask, hauthor⟩

/-- The calls of the workers are different calls. -/
theorem Deadlocked.size (hdead : s.Deadlocked author) :
    M + s.workers.length ≤ s.queue.length + s.condFull.waiters.card := by
  have hle : (Multiset.range s.workers.length).map some ≤
      s.condFull.waiters.map fun task => task.bind author := by
    rw [Multiset.le_iff_subset ((Multiset.nodup_range _).map (Option.some_injective _))]
    intro o ho
    obtain ⟨w, hw, rfl⟩ := Multiset.mem_map.mp ho
    obtain ⟨task, htask, hauthor⟩ := hdead.blocked w (Multiset.mem_range.mp hw)
    exact Multiset.mem_map.mpr ⟨task, htask, hauthor⟩
  have hcard := Multiset.card_le_card hle
  rw [Multiset.card_map, Multiset.card_map, Multiset.card_range] at hcard
  exact Nat.add_le_add hdead.full hcard

theorem Deadlocked.frozen (hdead : s.Deadlocked author) : Frozen author s s :=
  ⟨hdead, rfl, rfl, rfl, fun _ _ _ => rfl⟩

variable [DecidableEq τ]

/-! ## Steps -/

/-- A producer that wakes up is one of those that slept. -/
theorem blocked_resume {wakeup : Wakeup} {task : Option τ} {condFull : Condition (Option τ)}
    (hresume : s.condFull.resume wakeup task = some condFull) :
    s.Blocked author w ↔ task.bind author = some w ∨ (s.setFull condFull).Blocked author w := by
  show (∃ task' ∈ s.condFull.waiters, _) ↔ _ ∨ ∃ task' ∈ condFull.waiters, _
  simp [Condition.waiters_resume hresume]

theorem Calling.popTask {woken : Multiset (Option τ)} (hs : s.Calling author)
    (hnone : s.runningTask w = none) (hpop : s.popTask w woken = some t) : t.Calling author := by
  rcases popTask_cases hpop with
    ⟨-, -, rfl⟩ | ⟨-, -, rfl⟩ | ⟨task, rest, -, -, condFull, hnotify, rfl⟩ | ⟨-, rfl⟩
  · exact Calling.setPoint (s := s.setEmpty _) hs (.inl hnone)
  · exact hs.setPoint (.inl hnone)
  · have htaken : ((s.dequeue w task rest).setFull condFull).Calling author :=
      fun v hv => hs v ((blocked_congr (Condition.waiters_notify hnotify)).mp hv)
    exact htaken.setPoint (.inl hnone)
  · exact hs

theorem Calling.step {action : PoolAction τ} (hs : s.Calling author) (hworkers : s.WorkerInv)
    (hnests : s.Nests author action) (hstep : s.step action = some t) : t.Calling author := by
  obtain ⟨-, -, hmove⟩ := step_cases hstep
  cases hmove with
  | start howner =>
      unfold ThreadPool.start
      split
      · exact hs
      · rename_i hrunning
        rw [Bool.not_eq_true] at hrunning
        exact fun w hw => absurd hw (hs.not_blocked_of_exited (hworkers.stopped howner hrunning))
  | stop | destroyRunning | runInline => exact hs
  | destroy howner hrunning =>
      exact fun w hw => absurd hw (hs.not_blocked_of_exited (hworkers.stopped howner hrunning))
  | join howner hjoin =>
      rcases join_cases hjoin with ⟨hnone, rfl⟩ | ⟨worker, hworker, ⟨-, rfl⟩ | ⟨thread, -, -, rfl⟩⟩
      · split
        · exact fun w hw =>
            absurd hw (hs.not_blocked_of_exited (hworkers.exited_of_joined howner hnone))
        · exact hs
      · exact hs
      · intro w hw
        unfold runningTask
        rw [pointOf_joined hworker]
        exact hs w hw
  | push _ hpush => exact hs.pushTask (fun w hw => (hnests w hw).1) hpush
  | resumePush hresume hpush =>
      rename_i condFull
      refine Calling.pushTask (s := s.setFull condFull) ?_ ?_ hpush
      · exact fun w hw => hs w ((blocked_resume hresume).mpr (.inr hw))
      · exact fun w hw => hs w ((blocked_resume hresume).mpr (.inl hw))
  | test hpoint => exact hs.setPoint (.inl (by simp [runningTask, hpoint]))
  | pop hpoint hpop => exact hs.popTask (by simp [runningTask, hpoint]) hpop
  | resumePop hresume hpop =>
      rename_i w woken condEmpty
      obtain ⟨hpoint, -⟩ := hworkers.resume hresume
      refine Calling.popTask (s := s.setEmpty condEmpty) hs ?_ hpop
      show s.runningTask w = none
      simp [runningTask, hpoint]
  | call hpoint =>
      rename_i w task
      exact Calling.setPoint (s := { s with ran := s.ran ++ (task.map (w, ·)).toList }) hs
        (.inr hnests)

/-- A worker that takes a task is one less on the way. -/
theorem Signals.popTask {woken : Multiset (Option τ)} (hsize : s.queue.length ≤ M)
    (hs : s.running = true → s.condEmpty.asleep ≠ 0 → ∃ awake : Finset ℕ,
      (∀ v ∈ awake, v ≠ w ∧ (s.pointOf v = some .testing ∨ s.pointOf v = some .popping)) ∧
        s.queue.length ≤ s.condEmpty.signalled.card + awake.card + 1)
    (hpop : s.popTask w woken = some t) : t.Signals := by
  rcases popTask_cases hpop with
    ⟨hqueue, -, rfl⟩ | ⟨-, hstopped, rfl⟩ | ⟨task, rest, hqueue, -, condFull, -, rfl⟩ | ⟨hlarge, -⟩
  · intro _ _
    refine ⟨∅, by simp, ?_⟩
    show s.queue.length ≤ _
    rw [hqueue]
    exact Nat.zero_le _
  · intro hrunning
    rw [show s.running = true from hrunning] at hstopped
    cases hstopped
  · intro hrunning hasleep
    obtain ⟨awake, hawake, hle⟩ := hs hrunning hasleep
    refine ⟨awake, ?_, ?_⟩
    · intro v hv
      obtain ⟨hvw, hpoint⟩ := hawake v hv
      rw [pointOf_setPoint_ne hvw]
      exact hpoint
    · rw [hqueue, List.length_cons] at hle
      exact Nat.le_of_succ_le_succ hle
  · exact absurd hsize (Nat.not_le_of_lt hlarge)

theorem Signals.step {action : PoolAction τ} (hs : s.Signals) (hworkers : s.WorkerInv)
    (hsize : s.queue.length ≤ M) (hstep : s.step action = some t) : t.Signals := by
  obtain ⟨-, -, hmove⟩ := step_cases hstep
  cases hmove with
  | start howner =>
      unfold ThreadPool.start
      split
      · exact hs
      · rename_i hrunning
        rw [Bool.not_eq_true] at hrunning
        have hnone := hworkers.noWaiters (hworkers.stopped howner hrunning)
        intro _ hasleep
        have hle : s.condEmpty.asleep ≤ 0 := hnone ▸ Multiset.le_add_right _ _
        exact absurd (Multiset.le_zero.mp hle) hasleep
  | stop | destroyRunning => exact nofun
  | destroy howner hrunning =>
      intro h
      rw [show s.running = true from h] at hrunning
      cases hrunning
  | join howner hjoin =>
      obtain ⟨hrunning, -⟩ := hworkers.joining _ _ howner
      rcases join_cases hjoin with ⟨-, rfl⟩ | ⟨worker, -, ⟨-, rfl⟩ | ⟨thread, -, -, rfl⟩⟩
      · split
        · exact fun h => absurd (hrunning.symm.trans h) Bool.false_ne_true
        · exact hs
      · exact hs
      · exact fun h => absurd (hrunning.symm.trans h) Bool.false_ne_true
  | runInline => exact hs
  | push hworkers hpush => exact hs.pushTask hpush
  | resumePush hresume hpush =>
      rename_i condFull
      exact Signals.pushTask (s := s.setFull condFull) hs hpush
  | test hpoint =>
      refine hs.setPoint hpoint fun _ hrunning => ?_
      rw [if_pos hrunning]
      exact Or.inr rfl
  | pop hpoint hpop =>
      rename_i w woken
      refine Signals.popTask hsize (fun hrunning hasleep => ?_) hpop
      obtain ⟨awake, hawake, hle⟩ := hs hrunning hasleep
      refine ⟨awake.erase w, ?_, ?_⟩
      · intro v hv
        rw [Finset.mem_erase] at hv
        exact ⟨hv.1, hawake v hv.2⟩
      · have := awake.pred_card_le_card_erase (a := w)
        omega
  | resumePop hresume hpop =>
      rename_i w woken condEmpty
      obtain ⟨hpoint, -⟩ := hworkers.resume hresume
      refine Signals.popTask (s := s.setEmpty condEmpty) hsize (fun hrunning hasleep => ?_) hpop
      have hbefore : s.condEmpty.asleep ≠ 0 :=
        Condition.asleep_ne_zero_of_le (Condition.asleep_resume_le hresume) hasleep
      obtain ⟨awake, hawake, hle⟩ := hs hrunning hbefore
      refine ⟨awake, ?_, ?_⟩
      · intro v hv
        refine ⟨?_, hawake v hv⟩
        rintro rfl
        simpa [hpoint] using hawake v hv
      · have := Condition.card_signalled_resume hresume
        show s.queue.length ≤ condEmpty.signalled.card + awake.card + 1
        omega
  | call hpoint =>
      rename_i w task
      exact Signals.setPoint (s := { s with ran := s.ran ++ (task.map (w, ·)).toList }) hs hpoint
        (by simp)

theorem nestedStep_eq_some {action : PoolAction τ} :
    s.nestedStep author action = some t ↔ s.Nests author action ∧ s.step action = some t := by
  rw [nestedStep, Option.ite_none_right_eq_some]

theorem Nested.step {action : PoolAction τ} (hs : s.Nested author) (hM : 0 < M)
    (hstep : s.nestedStep author action = some t) : t.Nested author := by
  obtain ⟨hnests, hstep⟩ := nestedStep_eq_some.mp hstep
  have hsize := hs.queue.size hM
  exact ⟨hs.queue.step hstep, hs.workers.step (fun _ => hsize) hstep,
    hs.signals.step hs.workers hsize hstep, hs.calling.step hs.workers hnests hstep⟩

/-! ## No thread can go on -/

/-- Where no thread can go on, a worker is in a call of its task, or asleep. -/
theorem Nested.blocked_or_asleep (hs : s.Nested author) (hrunning : s.Running)
    (hstuck : ∀ action : PoolAction τ, action.Own → s.nestedStep author action = none)
    {p : WorkerPoint τ} (hpoint : s.pointOf w = some p) :
    s.Blocked author w ∨ p = .waiting ∧ w ∈ s.condEmpty.asleep ∧ w ∉ s.condEmpty.signalled := by
  by_contra hnot
  rw [not_or] at hnot
  have hin : p ≠ .exited := by
    rintro rfl
    exact hs.workers.running hrunning.running w hpoint
  have hawake : p ≠ .waiting ∨ w ∈ s.condEmpty.signalled := by
    by_contra hasleep
    rw [not_or, not_not] at hasleep
    obtain ⟨rfl, hsignalled⟩ := hasleep
    have hmem := (hs.workers.waiting w).mpr hpoint
    exact hnot.2 ⟨rfl, (Multiset.mem_add.mp hmem).resolve_right hsignalled, hsignalled⟩
  obtain ⟨action, hown, hworker, hstep⟩ := hrunning.worker_acts hpoint hin hawake
  have hnests : s.Nests author action := by
    refine nests_of_own hown fun v hv => ?_
    cases hworker.symm.trans hv
    exact hnot.1
  have hnone := hstuck action hown
  rw [nestedStep, if_pos hnests] at hnone
  exact hstep hnone

theorem Nested.idle_or_deadlocked (hs : s.Nested author) (hM : 0 < M) (hrunning : s.Running)
    (hstuck : ∀ action : PoolAction τ, action.Own → s.nestedStep author action = none) :
    s.Idle ∨ s.Deadlocked author ∧ s.condFull.signalled = 0 := by
  have hnone : s.condFull.signalled = 0 := by
    by_contra hne
    obtain ⟨task, htask⟩ := Multiset.exists_mem_of_ne_zero hne
    obtain ⟨action, hown, hworker, hstep⟩ := hrunning.producer_acts htask
    have hnests : s.Nests author action := nests_of_own hown (by simp [hworker])
    have hnone := hstuck action hown
    rw [nestedStep, if_pos hnests] at hnone
    exact hstep hnone
  have hfull : s.condFull.asleep ≠ 0 → M ≤ s.queue.length := by
    intro hasleep
    by_contra hroom
    exact hs.queue.signalled hasleep (Nat.lt_of_not_le hroom) hnone
  have hwaiters : s.condFull.waiters = s.condFull.asleep := by
    rw [Condition.waiters, hnone, add_zero]
  by_cases hasleep : s.condEmpty.asleep = 0
  · -- every worker is in a call
    have hblocked : ∀ w < s.workers.length, s.Blocked author w := by
      intro w hw
      obtain ⟨p, hpoint⟩ := Option.isSome_iff_exists.mp (pointOf_isSome.mpr hw)
      refine (hs.blocked_or_asleep hrunning hstuck hpoint).resolve_right ?_
      rintro ⟨-, hmem, -⟩
      simp [hasleep] at hmem
    obtain ⟨task, htask, -⟩ := hblocked 0 (List.length_pos_of_ne_nil hrunning.workers)
    rw [hwaiters] at htask
    refine .inr ⟨⟨hfull ?_, hrunning.workers, hblocked⟩, hnone⟩
    rintro hzero
    simp [hzero] at htask
  · -- a worker sleeps, so there is no task
    obtain ⟨awake, hawake, hle⟩ := hs.signals hrunning.running hasleep
    have hawake : awake = ∅ := by
      by_contra hne
      obtain ⟨w, hw⟩ := Finset.nonempty_iff_ne_empty.mpr hne
      rcases hawake w hw with hpoint | hpoint
      · simpa [hs.calling.not_blocked hpoint (by simp)] using
          hs.blocked_or_asleep hrunning hstuck hpoint
      · simpa [hs.calling.not_blocked hpoint (by simp)] using
          hs.blocked_or_asleep hrunning hstuck hpoint
    have hsignalled : s.condEmpty.signalled = 0 := by
      by_contra hne
      obtain ⟨w, hw⟩ := Multiset.exists_mem_of_ne_zero hne
      have hpoint := (hs.workers.waiting w).mp (Multiset.mem_of_le (Multiset.le_add_left _ _) hw)
      rcases hs.blocked_or_asleep hrunning hstuck hpoint with hblocked | ⟨-, -, hnot⟩
      · exact hs.calling.not_blocked hpoint (by simp) hblocked
      · exact hnot hw
    have hqueue : s.queue = [] := by
      rw [hawake, hsignalled] at hle
      exact List.length_eq_zero_iff.mp (Nat.le_zero.mp hle)
    have hproducers : s.condFull.waiters = 0 := by
      rw [hwaiters]
      by_contra hne
      have hle := hfull hne
      rw [hqueue, List.length_nil] at hle
      omega
    refine .inl ⟨hqueue, hproducers, ?_⟩
    intro w hw
    obtain ⟨p, hpoint⟩ := Option.isSome_iff_exists.mp (pointOf_isSome.mpr hw)
    rcases hs.blocked_or_asleep hrunning hstuck hpoint with ⟨task, htask, -⟩ | ⟨-, hmem, -⟩
    · simp [hproducers] at htask
    · exact hmem

/-- A step of a thread that finds nobody on the way, and no signal, is none. -/
theorem Nested.stuck (hs : s.Nested author) (hnone : s.condFull.signalled = 0)
    (hworkers : ∀ w p, s.pointOf w = some p → s.Blocked author w ∨ w ∈ s.condEmpty.asleep)
    {action : PoolAction τ} (hown : action.Own) : s.nestedStep author action = none := by
  rw [Option.eq_none_iff_forall_ne_some]
  intro t hstep
  obtain ⟨hnests, hstep⟩ := nestedStep_eq_some.mp hstep
  obtain ⟨-, -, hmove⟩ := step_cases hstep
  have hresting : ∀ w p, s.pointOf w = some p → (∀ task, p ≠ .calling (some task)) →
      p = .waiting := by
    intro w p hpoint hp
    have hasleep := (hworkers w p hpoint).resolve_left (hs.calling.not_blocked hpoint hp)
    have hwaiting :=
      (hs.workers.waiting w).mp (Multiset.mem_of_le (Multiset.le_add_right _ _) hasleep)
    exact Option.some.inj (hpoint.symm.trans hwaiting)
  cases hmove with
  | start | stop | destroyRunning | destroy | join | runInline | push => exact hown
  | resumePush hresume =>
      cases hown
      simp [Condition.resume, hnone] at hresume
  | test hpoint => cases hresting _ _ hpoint (by simp)
  | pop hpoint => cases hresting _ _ hpoint (by simp)
  | @resumePop wakeup w woken condEmpty _ hresume hpop =>
      cases hown
      obtain ⟨hpoint, -⟩ := hs.workers.resume hresume
      have hasleep := (hworkers w _ hpoint).resolve_left (hs.calling.not_blocked hpoint (by simp))
      have hsignalled : w ∈ s.condEmpty.signalled := by
        by_contra hnot
        simp [Condition.resume, hnot] at hresume
      exact Multiset.disjoint_left.mp (Multiset.nodup_add.mp hs.workers.once).2.2 hasleep hsignalled
  | @call w task hpoint =>
      have hasleep := (hworkers w _ hpoint).resolve_left hnests
      have hwaiting :=
        (hs.workers.waiting w).mp (Multiset.mem_of_le (Multiset.le_add_right _ _) hasleep)
      cases hpoint.symm.trans hwaiting

theorem Nested.stuck_iff (hs : s.Nested author) (hM : 0 < M) (hrunning : s.Running) :
    (∀ action : PoolAction τ, action.Own → s.nestedStep author action = none) ↔
      s.Idle ∨ s.Deadlocked author ∧ s.condFull.signalled = 0 := by
  refine ⟨hs.idle_or_deadlocked hM hrunning, ?_⟩
  have hlt : ∀ w p, s.pointOf w = some p → w < s.workers.length :=
    fun w p hpoint => pointOf_isSome.mp (by simp [hpoint])
  rintro (hidle | ⟨hdead, hnone⟩) action hown
  · have hnone : s.condFull.signalled ≤ 0 := hidle.producers ▸ Multiset.le_add_left _ _
    exact hs.stuck (Multiset.le_zero.mp hnone)
      (fun w p hpoint => .inr (hidle.asleep w (hlt w p hpoint))) hown
  · exact hs.stuck hnone (fun w p hpoint => .inl (hdead.blocked w (hlt w p hpoint))) hown

/-! ## Nothing ends a deadlock -/

theorem Nested.frozen_step {u : ThreadPool M τ} {action : PoolAction τ} (ht : t.Nested author)
    (hM : 0 < M) (hst : Frozen author s t) (hstep : t.nestedStep author action = some u) :
    Frozen author s u := by
  obtain ⟨hnests, hstep⟩ := nestedStep_eq_some.mp hstep
  obtain ⟨-, -, hmove⟩ := step_cases hstep
  have hdead := hst.deadlocked
  have hpoint : ∀ {w p}, t.pointOf w = some p → ∃ task, p = .calling (some task) :=
    fun h => hdead.atTask ht.calling h
  cases hmove with
  | start howner =>
      unfold ThreadPool.start
      split
      · exact { hst with deadlocked := { hdead with } }
      · rename_i hrunning
        rw [Bool.not_eq_true] at hrunning
        exact absurd (ht.workers.stopped howner hrunning) (hdead.not_exited ht.calling)
  | stop howner | destroyRunning howner =>
      refine { hst with deadlocked := { hdead with }, joining := ?_ }
      intro next last hjoining
      rw [← hst.joining next last hjoining, howner] at hjoining
      cases hjoining
  | destroy howner hrunning =>
      exact absurd (ht.workers.stopped howner hrunning) (hdead.not_exited ht.calling)
  | join howner hjoin =>
      rcases join_cases hjoin with
        ⟨hnone, -⟩ | ⟨worker, hworker, ⟨-, rfl⟩ | ⟨thread, -, hexited, -⟩⟩
      · exact absurd (ht.workers.exited_of_joined howner hnone) (hdead.not_exited ht.calling)
      · exact { hst with deadlocked := { hdead with } }
      · obtain ⟨task, htask⟩ := hpoint (w := _) (by rw [pointOf, hworker]; rfl)
        rw [hexited] at htask
        cases htask
  | runInline hworkers => exact absurd hworkers hdead.workers
  | push _ hpush =>
      cases pushTask_full hM hdead.full hpush
      refine { hst with deadlocked := hdead.mono ?_ }
      rw [Condition.waiters_wait]
      exact Multiset.subset_cons _ _
  | @resumePush _ task _ condFull _ hresume hpush =>
      -- the call sleeps again
      cases pushTask_full (s := t.setFull condFull) hM hdead.full hpush
      have hdead : (t.setFull (condFull.wait task)).Deadlocked author := by
        refine hdead.mono ?_
        rw [Condition.waiters_wait, Condition.waiters_resume hresume]
        exact Multiset.Subset.refl _
      exact { hst with deadlocked := hdead }
  | test h | pop h =>
      obtain ⟨task, htask⟩ := hpoint h
      cases htask
  | resumePop hresume =>
      obtain ⟨task, htask⟩ := hpoint (ht.workers.resume hresume).1
      cases htask
  | call h =>
      have hlt := pointOf_isSome.mp (Option.isSome_of_eq_some h)
      exact absurd (hdead.blocked _ hlt) hnests

theorem Nested.deadlockExact (hs : s.Nested author) (hM : 0 < M) : s.DeadlockExact author where
  stuck := hs.stuck_iff hM
  forever hdead actions t hrun := by
    have hend : t.Nested author ∧ Frozen author s t :=
      Machine.exec_related (m := nestedMachine M author)
        (R := fun s t => t.Nested author ∧ Frozen author s t) (G := fun _ => True)
        (fun _ _ _ _ ht _ hstep => ⟨ht.1.step hM hstep, ht.1.frozen_step hM ht.2 hstep⟩)
        ⟨hs, hdead.frozen⟩ (fun _ _ => trivial) hrun
    exact hend.2
  size := Deadlocked.size

/-- **Where no thread of a pool whose tasks push can go on** it is idle or deadlocked, whichever
tasks push and in whatever order the threads run; and a deadlock is for ever. -/
theorem deadlock_exact (hM : 0 < M) (actions : List (PoolAction τ)) :
    (nestedMachine M author).Throughout (DeadlockExact author) (nestedMachine M author).init
      actions :=
  (Machine.throughout_of_invariant (m := nestedMachine M author)
    (fun _ _ _ hs hstep => hs.step hM hstep) nested_new actions).mono
    fun _ hs => hs.deadlockExact hM

/-- The only worker runs a task that pushes two more. -/
def selfFillingRun : List (PoolAction ℕ) :=
  [.start 1, .push (some 0) 0, .test 0, .pop 0 0, .push (some 1) 0, .push (some 2) 0]

theorem deadlock_exact_selfFilling : ∃ s : ThreadPool 1 ℕ,
    (nestedMachine 1 fun task => if task = 0 then none else some 0).exec .new selfFillingRun =
        some s ∧
      s.Deadlocked (fun task => if task = 0 then none else some 0) ∧
      s.DeadlockExact fun task => if task = 0 then none else some 0 := by
  refine ⟨_, rfl, ⟨le_rfl, List.cons_ne_nil _ _, by decide⟩, ?_⟩
  exact (deadlock_exact Nat.one_pos selfFillingRun).last rfl

end ThreadPool

end YxAlpha
