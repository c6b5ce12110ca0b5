import YxAlpha.Thread.PoolInvariant

/-!
# Wake-ups of the pool

While the pool is running no signal is lost: with a task in the queue some worker is awake
or signalled, and with room in the queue no producer sleeps unless another one has been
signalled.  So if no thread can go on by itself, there is nothing left to do
(`wakeups_kept`).
-/

namespace YxAlpha

/-- A step of a thread that is awake or has been signalled. -/
def PoolAction.Own {τ : Type*} : PoolAction τ → Prop
  | .test _ | .pop _ _ | .call _ => True
  | .resumePop wakeup _ _ | .resumePush wakeup _ _ => wakeup = .signalled
  | _ => False

/-- The worker whose thread takes the step. -/
def PoolAction.worker {τ : Type*} : PoolAction τ → Option ℕ
  | .test w | .pop w _ | .resumePop _ w _ | .call w => some w
  | _ => none

namespace ThreadPool

variable {M : ℕ} {τ : Type*} {s t : ThreadPool M τ}

/-- `Start` has returned, and `Stop` has not been called. -/
structure Running (s : ThreadPool M τ) : Prop where
  asserts : s.failed = false
  present : s.owner ≠ .destroyed
  running : s.running = true
  workers : s.workers ≠ []

theorem QueueInv.signalled (hs : s.QueueInv) (hasleep : s.condFull.asleep ≠ 0)
    (hroom : s.queue.length < M) : s.condFull.signalled ≠ 0 := by
  have hcard := hs.room hasleep
  rw [← Multiset.card_pos]
  unfold ThreadPool.room at hcard
  omega

variable [DecidableEq τ]

structure WakeupsKept (s : ThreadPool M τ) : Prop where
  /-- With a task in the queue a worker is awake or signalled. -/
  queued : s.queue ≠ [] → ∃ w p, s.pointOf w = some p ∧ p ≠ .exited ∧
    (p ≠ .waiting ∨ w ∈ s.condEmpty.signalled)
  /-- A producer sleeps beside room in the queue only behind one that has been signalled. -/
  room : s.condFull.asleep ≠ 0 → s.queue.length < M → s.condFull.signalled ≠ 0
  /-- If no thread can go on, there is no task left, and no producer. -/
  progress : (∀ action : PoolAction τ, action.Own → s.step action = none) →
    s.queue = [] ∧ s.condFull.waiters = 0

/-! ## Steps that can be taken -/

theorem exists_popTask (s : ThreadPool M τ) (w : ℕ) : ∃ woken t, s.popTask w woken = some t := by
  obtain ⟨woken, condFull, hnotify⟩ := s.condFull.exists_notify
  refine ⟨woken, ?_⟩
  unfold popTask
  split
  · split
    · exact ⟨_, rfl⟩
    · exact ⟨_, rfl⟩
  · split
    · rename_i hlt
      rw [if_pos (Nat.zero_lt_of_lt hlt), hnotify]
      exact ⟨_, rfl⟩
    · exact ⟨_, rfl⟩

/-- A worker that is awake or signalled can go on. -/
theorem Running.worker_acts {w : ℕ} {p : WorkerPoint τ} (hs : s.Running)
    (hpoint : s.pointOf w = some p) (hin : p ≠ .exited)
    (hawake : p ≠ .waiting ∨ w ∈ s.condEmpty.signalled) :
    ∃ action : PoolAction τ, action.Own ∧ action.worker = some w ∧ s.step action ≠ none := by
  have halive : ¬ (s.failed = true ∨ s.owner = .destroyed) := by
    simp [hs.asserts, hs.present]
  cases p with
  | testing =>
      refine ⟨.test w, trivial, rfl, ?_⟩
      rw [step, if_neg halive]
      simp [hpoint]
  | popping =>
      obtain ⟨woken, t, hpop⟩ := s.exists_popTask w
      refine ⟨.pop w woken, trivial, rfl, ?_⟩
      rw [step, if_neg halive]
      simp [hpoint, hpop]
  | waiting =>
      have hsignalled := hawake.resolve_left fun h => h rfl
      obtain ⟨condEmpty, hresume⟩ := Condition.exists_resume hsignalled
      obtain ⟨woken, t, hpop⟩ := (s.setEmpty condEmpty).exists_popTask w
      refine ⟨.resumePop .signalled w woken, rfl, rfl, ?_⟩
      rw [step, if_neg halive]
      simp [hresume, hpop]
  | calling task =>
      refine ⟨.call w, trivial, rfl, ?_⟩
      rw [step, if_neg halive]
      simp [hpoint]
  | exited => exact absurd rfl hin

theorem Running.worker_steps {w : ℕ} {p : WorkerPoint τ} (hs : s.Running)
    (hpoint : s.pointOf w = some p) (hin : p ≠ .exited)
    (hawake : p ≠ .waiting ∨ w ∈ s.condEmpty.signalled) :
    ∃ action : PoolAction τ, action.Own ∧ s.step action ≠ none := by
  obtain ⟨action, hown, -, hstep⟩ := hs.worker_acts hpoint hin hawake
  exact ⟨action, hown, hstep⟩

theorem Running.producer_acts {task : Option τ} (hs : s.Running)
    (hsignalled : task ∈ s.condFull.signalled) :
    ∃ action : PoolAction τ, action.Own ∧ action.worker = none ∧ s.step action ≠ none := by
  have halive : ¬ (s.failed = true ∨ s.owner = .destroyed) := by
    simp [hs.asserts, hs.present]
  obtain ⟨condFull, hresume⟩ := Condition.exists_resume hsignalled
  obtain ⟨woken, t, hpush⟩ := (s.setFull condFull).exists_pushTask task
  refine ⟨.resumePush .signalled task woken, rfl, rfl, ?_⟩
  rw [step, if_neg halive]
  simp [hresume, hpush]

theorem Running.producer_steps {task : Option τ} (hs : s.Running)
    (hsignalled : task ∈ s.condFull.signalled) :
    ∃ action : PoolAction τ, action.Own ∧ s.step action ≠ none := by
  obtain ⟨action, hown, -, hstep⟩ := hs.producer_acts hsignalled
  exact ⟨action, hown, hstep⟩

/-! ## No signal is lost -/

theorem WorkerInv.queued (hs : s.WorkerInv) (hrunning : s.Running) (hqueue : s.queue ≠ []) :
    ∃ w p, s.pointOf w = some p ∧ p ≠ .exited ∧ (p ≠ .waiting ∨ w ∈ s.condEmpty.signalled) := by
  obtain ⟨w, hw, hasleep⟩ := hs.awake hrunning.running hqueue hrunning.workers
  obtain ⟨p, hpoint⟩ := Option.isSome_iff_exists.mp hw
  refine ⟨w, p, hpoint, ?_, ?_⟩
  · rintro rfl
    exact hs.running hrunning.running w hpoint
  · by_cases hp : p = .waiting
    · right
      rw [hp, ← hs.waiting w] at hpoint
      exact (Multiset.mem_add.mp hpoint).resolve_left hasleep
    · exact Or.inl hp

theorem WorkerInv.wakeupsKept (hs : s.WorkerInv) (hqueue : s.QueueInv) (hM : 0 < M)
    (hrunning : s.Running) : s.WakeupsKept where
  queued := hs.queued hrunning
  room := hqueue.signalled
  progress hstuck := by
    have hnone : ¬ ∃ action : PoolAction τ, action.Own ∧ s.step action ≠ none := by
      rintro ⟨action, hown, hstep⟩
      exact hstep (hstuck action hown)
    -- a task would have a worker, and room a producer
    have hempty : s.queue = [] := by
      by_contra hne
      obtain ⟨w, p, hpoint, hin, hawake⟩ := hs.queued hrunning hne
      exact hnone (hrunning.worker_steps hpoint hin hawake)
    have hsignalled : s.condFull.signalled = 0 := by
      by_contra hne
      obtain ⟨task, htask⟩ := Multiset.exists_mem_of_ne_zero hne
      exact hnone (hrunning.producer_steps htask)
    have hasleep : s.condFull.asleep = 0 := by
      by_contra hne
      exact hqueue.signalled hne (by simpa [hempty] using hM) hsignalled
    exact ⟨hempty, by rw [Condition.waiters, hasleep, hsignalled, add_zero]⟩

/-- **No wake-up is lost** while the pool runs, whoever pushes and in whatever order. -/
theorem wakeups_kept (hM : 0 < M) (actions : List (PoolAction τ)) :
    (machine M τ).Throughout (fun s => s.Running → s.WakeupsKept) (machine M τ).init actions :=
  (Machine.throughout_of_invariant (m := machine M τ) (I := fun s => s.QueueInv ∧ s.WorkerInv)
    (fun _ _ _ hs hstep => ⟨hs.1.step hstep, hs.2.step (fun _ => hs.1.size hM) hstep⟩)
    ⟨queueInv_new, workerInv_new⟩ actions).mono fun _ hs => hs.2.wakeupsKept hs.1 hM

/-- Two producers asleep behind a full queue, and a worker that has a task in hand. -/
def crowdedRun : List (PoolAction ℕ) :=
  [.start 1, .push (some 0) 0, .test 0, .pop 0 0, .push (some 1) 0, .push (some 2) 0,
    .push (some 3) 0]

theorem wakeups_kept_crowded : ∃ s : ThreadPool 1 ℕ,
    (machine 1 ℕ).exec (machine 1 ℕ).init crowdedRun = some s ∧
      s.condFull.asleep.card = 2 ∧ s.WakeupsKept := by
  refine ⟨_, rfl, rfl, ?_⟩
  apply (wakeups_kept Nat.one_pos crowdedRun).last rfl
  exact ⟨rfl, by decide, rfl, List.cons_ne_nil _ _⟩

end ThreadPool

end YxAlpha
