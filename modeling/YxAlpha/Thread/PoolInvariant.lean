import YxAlpha.Thread.ThreadPool

/-!
# The queue and the workers of the pool

Two invariants of the thread pool.  `QueueInv` is about the queue and the producers: when
one is asleep, as many others have been signalled as the queue has room.  `WorkerInv` is
about the workers: exactly those in `cond_empty_.wait()` wait there, and while the pool is
running and the queue is not empty one of them is not asleep.
-/

namespace YxAlpha

namespace ThreadPool

variable {M : ℕ} {τ : Type*} {s t : ThreadPool M τ} {w v : ℕ} {point : WorkerPoint τ}

/-- The tasks that can be put into the queue before it is full. -/
def room (s : ThreadPool M τ) : ℕ := M - s.queue.length

structure QueueInv (s : ThreadPool M τ) : Prop where
  size : 0 < M → s.queue.length ≤ M
  room : s.condFull.asleep ≠ 0 → s.room ≤ s.condFull.signalled.card

/-- Workers leave only when `running_` is false, and are joined in their order. -/
structure LifeInv (s : ThreadPool M τ) : Prop where
  running : s.running = true → ∀ w, s.pointOf w ≠ some .exited
  stopped : s.owner = .idle → s.running = false → ∀ w p, s.pointOf w = some p → p = .exited
  joining : ∀ next last, s.owner = .joining next last →
    s.running = false ∧ ∀ w < next, s.pointOf w = some .exited

structure WorkerInv (s : ThreadPool M τ) : Prop extends s.LifeInv where
  waiting : ∀ w, w ∈ s.condEmpty.waiters ↔ s.pointOf w = some .waiting
  once : s.condEmpty.waiters.Nodup
  awake : s.running = true → s.queue ≠ [] → s.workers ≠ [] →
    ∃ w, (s.pointOf w).isSome ∧ w ∉ s.condEmpty.asleep

theorem queueInv_new : (new : ThreadPool M τ).QueueInv where
  size _ := Nat.zero_le _
  room h := absurd rfl h

theorem workerInv_new : (new : ThreadPool M τ).WorkerInv where
  waiting w := by simp [new, Condition.waiters, Condition.new, pointOf]
  once := by simp [new, Condition.waiters, Condition.new]
  awake h := by cases h
  running h := by cases h
  stopped _ _ w p h := by simp [new, pointOf] at h
  joining _ _ h := by cases h

/-! ## Points -/

theorem pointOf_setPoint : (s.setPoint w point).pointOf v =
    if v = w then (s.pointOf w).map fun _ => point else s.pointOf v := by
  simp only [pointOf, setPoint, List.getElem?_modify]
  split
  · subst_vars
    simp [Function.comp_def]
  · rw [if_neg fun h => ‹¬ _› h.symm]
    simp

theorem pointOf_setPoint_self (h : s.pointOf w ≠ none) :
    (s.setPoint w point).pointOf w = some point := by
  rw [pointOf_setPoint, if_pos rfl]
  cases hw : s.pointOf w with
  | none => exact absurd hw h
  | some p => rfl

theorem pointOf_setPoint_ne (h : v ≠ w) : (s.setPoint w point).pointOf v = s.pointOf v := by
  rw [pointOf_setPoint, if_neg h]

theorem workers_ne_nil (h : s.pointOf w ≠ none) : s.workers ≠ [] := by
  intro hnil
  simp [pointOf, hnil] at h

theorem pointOf_start {numThreads : ℕ} {thread : Thread} {joins : ℕ}
    (h : s.workers = List.replicate numThreads ⟨thread, point, joins⟩) :
    s.pointOf w = if w < numThreads then some point else none := by
  rw [pointOf, h, List.getElem?_replicate]
  split <;> rfl

/-- A join changes no point. -/
theorem pointOf_joined {next : ℕ} {last : Bool} {worker : Worker τ} {thread : Thread}
    (hworker : s.workers[next]? = some worker) :
    (s.joined next last worker thread).pointOf w = s.pointOf w := by
  simp only [pointOf, joined, List.getElem?_set]
  split
  · subst_vars
    rw [if_pos (List.getElem?_eq_some_iff.mp hworker).1, hworker]
    rfl
  · rfl

/-! ## What the functions do -/

theorem pushTask_cases {task : Option τ} {woken : Multiset ℕ} (h : s.pushTask task woken = some t) :
    (0 < M ∧ M ≤ s.queue.length ∧ t = s.setFull (s.condFull.wait task)) ∨
    ((0 < M → s.queue.length < M) ∧ ∃ condEmpty, s.condEmpty.notify woken = some condEmpty ∧
      t = (s.enqueue task).setEmpty condEmpty) ∨
    (M = 0 ∧ s.queue ≠ [] ∧ t = s.fail) := by
  unfold pushTask at h
  split at h
  · rename_i hfull
    exact Or.inl ⟨hfull.1, hfull.2, (Option.some.inj h).symm⟩
  · rename_i hfull
    apply Or.inr
    split at h
    · split at h
      · rename_i condEmpty hnotify
        exact Or.inl ⟨by omega, condEmpty, hnotify, (Option.some.inj h).symm⟩
      · cases h
    · rename_i hsize
      refine Or.inr ⟨by omega, ?_, (Option.some.inj h).symm⟩
      rintro hnil
      simp [hnil] at hsize

theorem exists_pushTask (s : ThreadPool M τ) (task : Option τ) :
    ∃ woken t, s.pushTask task woken = some t := by
  obtain ⟨woken, condEmpty, hnotify⟩ := s.condEmpty.exists_notify
  refine ⟨woken, ?_⟩
  unfold pushTask
  split
  · exact ⟨_, rfl⟩
  · split
    · rw [hnotify]
      exact ⟨_, rfl⟩
    · exact ⟨_, rfl⟩

theorem join_cases {next : ℕ} {last : Bool} (h : s.join next last = some t) :
    (s.workers[next]? = none ∧ t = if last then s.destroyed else { s with owner := .idle }) ∨
    (∃ worker, s.workers[next]? = some worker ∧
      (worker.thread.join = none ∧ t = s.fail ∨
      ∃ thread, worker.thread.join = some thread ∧ worker.point = .exited ∧
        t = s.joined next last worker thread)) := by
  unfold join at h
  split at h
  · exact Or.inl ⟨‹_›, (Option.some.inj h).symm⟩
  · rename_i worker hworker
    refine Or.inr ⟨worker, hworker, ?_⟩
    split at h
    · exact Or.inl ⟨‹_›, (Option.some.inj h).symm⟩
    · rename_i thread hthread
      split at h
      · exact Or.inr ⟨thread, hthread, ‹_›, (Option.some.inj h).symm⟩
      · cases h

/-! ## Producers -/

theorem QueueInv.pushTask {task : Option τ} {woken : Multiset ℕ}
    (hsize : 0 < M → s.queue.length ≤ M)
    (hroom : s.condFull.asleep ≠ 0 → s.room ≤ s.condFull.signalled.card + 1)
    (hpush : s.pushTask task woken = some t) : t.QueueInv := by
  unfold ThreadPool.room at hroom
  rcases pushTask_cases hpush with ⟨-, hfull, rfl⟩ | ⟨hlt, condEmpty, -, rfl⟩ | ⟨hzero, -, rfl⟩
  · refine ⟨hsize, ?_⟩
    intro _
    show M - s.queue.length ≤ _
    omega
  · constructor
    · intro hM
      have := hlt hM
      show (s.queue ++ [task]).length ≤ M
      rw [List.length_append, List.length_singleton]
      omega
    · intro hasleep
      have := hroom hasleep
      show M - (s.queue ++ [task]).length ≤ s.condFull.signalled.card
      rw [List.length_append, List.length_singleton]
      omega
  · refine ⟨fun hM => by omega, ?_⟩
    intro _
    show M - s.queue.length ≤ _
    omega

/-! ## Workers -/

/-- One worker has come to another point. -/
structure Moved (s t : ThreadPool M τ) (w : ℕ) (point : WorkerPoint τ) : Prop where
  self : t.pointOf w = some point
  other : ∀ v, v ≠ w → t.pointOf v = s.pointOf v
  owner : t.owner = s.owner
  running : t.running = s.running

theorem moved_setPoint (h : s.pointOf w ≠ none) : Moved s (s.setPoint w point) w point where
  self := pointOf_setPoint_self h
  other _ := pointOf_setPoint_ne
  owner := rfl
  running := rfl

theorem moved_setEmpty {condEmpty : Condition ℕ} (h : s.pointOf w ≠ none) :
    Moved s ((s.setEmpty condEmpty).setPoint w point) w point :=
  { moved_setPoint (s := s.setEmpty condEmpty) (w := w) h with }

theorem LifeInv.move {p : WorkerPoint τ} (hs : s.LifeInv) (hmoved : Moved s t w point)
    (hpoint : s.pointOf w = some p) (hin : p ≠ .exited)
    (hexit : point = .exited → s.running = false) : t.LifeInv := by
  constructor
  · intro hrunning v
    rw [hmoved.running] at hrunning
    by_cases hv : v = w
    · rw [hv, hmoved.self]
      intro h
      have hstopped := hexit (Option.some.inj h)
      simp [hrunning] at hstopped
    · rw [hmoved.other v hv]
      exact hs.running hrunning v
  · -- were the round over, the worker would have left
    intro howner hrunning
    rw [hmoved.owner] at howner
    rw [hmoved.running] at hrunning
    exact absurd (hs.stopped howner hrunning w p hpoint) hin
  · intro next last howner
    rw [hmoved.owner] at howner
    obtain ⟨hrunning, hexited⟩ := hs.joining next last howner
    refine ⟨hmoved.running.trans hrunning, ?_⟩
    intro v hlt
    have hv : v ≠ w := by
      rintro rfl
      have hpv := hexited v hlt
      rw [hpoint] at hpv
      exact hin (Option.some.inj hpv)
    rw [hmoved.other v hv]
    exact hexited v hlt

/-- A worker that is awake, and stays awake. -/
theorem WorkerInv.setPoint {p : WorkerPoint τ} (hs : s.WorkerInv) (hpoint : s.pointOf w = some p)
    (hawake : p ≠ .waiting) (hin : p ≠ .exited) (hstays : point ≠ .waiting)
    (hexit : point = .exited → s.running = false) : (s.setPoint w point).WorkerInv := by
  have hmoved : Moved s (s.setPoint w point) w point := moved_setPoint (by simp [hpoint])
  refine { hs.toLifeInv.move hmoved hpoint hin hexit with
    waiting := ?_, once := hs.once, awake := ?_ }
  · intro v
    show v ∈ s.condEmpty.waiters ↔ _
    rw [hs.waiting v]
    by_cases hv : v = w
    · rw [hv, hmoved.self, hpoint]
      simp [hawake, hstays]
    · rw [hmoved.other v hv]
  · intro hrunning hqueue _
    have hne : s.workers ≠ [] := workers_ne_nil (w := w) (by simp [hpoint])
    obtain ⟨v, hv, hasleep⟩ := hs.awake hrunning hqueue hne
    refine ⟨v, ?_, hasleep⟩
    by_cases hvw : v = w
    · rw [hvw, hmoved.self]
      rfl
    · rw [hmoved.other v hvw]
      exact hv

/-- A worker that finds the queue empty falls asleep. -/
theorem WorkerInv.wait (hs : s.WorkerInv) (hpoint : s.pointOf w = some .popping)
    (hqueue : s.queue = []) :
    ((s.setEmpty (s.condEmpty.wait w)).setPoint w .waiting).WorkerInv := by
  have hmoved : Moved s ((s.setEmpty (s.condEmpty.wait w)).setPoint w .waiting) w .waiting :=
    moved_setEmpty (by simp [hpoint])
  have hlife := hs.toLifeInv.move hmoved hpoint nofun nofun
  refine { hlife with waiting := ?_, once := ?_, awake := ?_ }
  · intro v
    show v ∈ (s.condEmpty.wait w).waiters ↔ _
    rw [Condition.waiters_wait, Multiset.mem_cons, hs.waiting v]
    by_cases hv : v = w
    · rw [hv, hmoved.self]
      simp
    · rw [hmoved.other v hv, or_iff_right hv]
  · show (s.condEmpty.wait w).waiters.Nodup
    rw [Condition.waiters_wait, Multiset.nodup_cons, hs.waiting w, hpoint]
    exact ⟨by simp, hs.once⟩
  · intro _ hne
    exact absurd hqueue hne

/-- A worker that resumes is as one that has come to the mutex. -/
theorem WorkerInv.resume {wakeup : Wakeup} {condEmpty : Condition ℕ} (hs : s.WorkerInv)
    (hresume : s.condEmpty.resume wakeup w = some condEmpty) :
    s.pointOf w = some .waiting ∧ ((s.setEmpty condEmpty).setPoint w .popping).WorkerInv := by
  have hwaiters := Condition.waiters_resume hresume
  have hpoint : s.pointOf w = some .waiting := by
    rw [← hs.waiting w, hwaiters]
    exact Multiset.mem_cons_self _ _
  have honce := hs.once
  rw [hwaiters, Multiset.nodup_cons] at honce
  obtain ⟨hgone, honce⟩ := honce
  have hmoved : Moved s ((s.setEmpty condEmpty).setPoint w .popping) w .popping :=
    moved_setEmpty (by simp [hpoint])
  have hlife := hs.toLifeInv.move hmoved hpoint nofun nofun
  refine ⟨hpoint, { hlife with waiting := ?_, once := honce, awake := ?_ }⟩
  · intro v
    show v ∈ condEmpty.waiters ↔ _
    by_cases hv : v = w
    · rw [hv, hmoved.self]
      simp [hgone]
    · rw [hmoved.other v hv, ← hs.waiting v, hwaiters, Multiset.mem_cons, or_iff_right hv]
  · -- the worker itself is awake
    intro _ _ _
    refine ⟨w, by simp [hmoved.self], ?_⟩
    intro h
    exact hgone (Multiset.mem_of_le (Multiset.le_add_right _ _) h)

/-- A signal wakes a worker if all are asleep. -/
theorem WorkerInv.pushTask {task : Option τ} {woken : Multiset ℕ} (hs : s.WorkerInv)
    (hpush : s.pushTask task woken = some t) : t.WorkerInv := by
  rcases pushTask_cases hpush with ⟨-, -, rfl⟩ | ⟨-, condEmpty, hnotify, rfl⟩ | ⟨-, -, rfl⟩
  · exact { hs with }
  · have hwaiters := Condition.waiters_notify hnotify
    refine { hs with waiting := ?_, once := ?_, awake := ?_ }
    · intro w
      show w ∈ condEmpty.waiters ↔ s.pointOf w = some .waiting
      rw [hwaiters]
      exact hs.waiting w
    · show condEmpty.waiters.Nodup
      rw [hwaiters]
      exact hs.once
    · intro _ _ hworkers
      show ∃ w, (s.pointOf w).isSome ∧ w ∉ condEmpty.asleep
      by_cases hasleep : s.condEmpty.asleep = 0
      · have hle := Condition.asleep_notify_le hnotify
        rw [hasleep, Multiset.le_zero] at hle
        refine ⟨0, ?_, by simp [hle]⟩
        have hpos : 0 < s.workers.length := List.length_pos_of_ne_nil hworkers
        simp [pointOf, hpos]
      · obtain ⟨w, hw, hwoken⟩ := Condition.exists_woken hnotify hasleep hs.once
        have hpoint := (hs.waiting w).mp (Multiset.mem_of_le (Multiset.le_add_right _ _) hw)
        exact ⟨w, by simp [hpoint], hwoken⟩
  · exact { hs with }

/-! ## The owner -/

theorem WorkerInv.noWaiters (hs : s.WorkerInv)
    (hexited : ∀ w p, s.pointOf w = some p → p = .exited) : s.condEmpty.waiters = 0 := by
  rw [Multiset.eq_zero_iff_forall_notMem]
  intro w hw
  have hpoint := hexited w _ ((hs.waiting w).mp hw)
  cases hpoint

theorem WorkerInv.start {numThreads : ℕ} (hs : s.WorkerInv) (howner : s.owner = .idle) :
    (s.start numThreads).WorkerInv := by
  unfold ThreadPool.start
  split
  · exact { hs with }
  · rename_i hrunning
    rw [Bool.not_eq_true] at hrunning
    have hnone := hs.noWaiters (hs.stopped howner hrunning)
    refine ⟨⟨?_, ?_, ?_⟩, ?_, ?_, ?_⟩
    · intro _ w
      rw [pointOf_start rfl]
      split <;> simp
    · intro _ hstopped
      cases hstopped
    · intro next last hjoining
      rw [show s.owner = .joining next last from hjoining] at howner
      cases howner
    · -- the workers of the last round have left, so nobody waits
      intro w
      show w ∈ s.condEmpty.waiters ↔ _
      rw [hnone, pointOf_start rfl]
      split <;> simp
    · show s.condEmpty.waiters.Nodup
      rw [hnone]
      exact Multiset.nodup_zero
    · intro _ _ hworkers
      have hpos : 0 < numThreads := by
        apply Nat.pos_of_ne_zero
        rintro rfl
        exact hworkers rfl
      refine ⟨0, ?_, ?_⟩
      · rw [pointOf_start rfl, if_pos hpos]
        rfl
      · intro h
        have hmem : 0 ∈ s.condEmpty.waiters := Multiset.mem_of_le (Multiset.le_add_right _ _) h
        rw [hnone] at hmem
        exact Multiset.notMem_zero 0 hmem

theorem WorkerInv.stop {last : Bool} (hs : s.WorkerInv) : (s.stop last).WorkerInv where
  waiting w := by
    show w ∈ s.condEmpty.notifyAll.waiters ↔ _
    rw [Condition.waiters_notifyAll]
    exact hs.waiting w
  once := by
    show s.condEmpty.notifyAll.waiters.Nodup
    rw [Condition.waiters_notifyAll]
    exact hs.once
  awake h := by cases h
  running h := by cases h
  stopped h := by cases h
  joining next _ h := by
    cases h
    exact ⟨rfl, fun w hlt => absurd hlt (Nat.not_lt_zero w)⟩

theorem WorkerInv.destroyed (hs : s.WorkerInv)
    (hexited : ∀ w p, s.pointOf w = some p → p = .exited) : s.destroyed.WorkerInv where
  waiting w := by
    show w ∈ s.condEmpty.waiters ↔ _
    simp [hs.noWaiters hexited, pointOf, ThreadPool.destroyed]
  once := hs.once
  awake _ _ h := absurd rfl h
  running _ w := by simp [pointOf, ThreadPool.destroyed]
  stopped h := by cases h
  joining _ _ h := by cases h

/-- When all threads have been joined, all workers have left. -/
theorem LifeInv.exited_of_joined {next : ℕ} {last : Bool} (hs : s.LifeInv)
    (howner : s.owner = .joining next last) (hnone : s.workers[next]? = none) :
    ∀ w p, s.pointOf w = some p → p = .exited := by
  intro w p hp
  have hlt : w < s.workers.length := by
    by_contra hge
    rw [pointOf, List.getElem?_eq_none (Nat.le_of_not_lt hge)] at hp
    cases hp
  have hw := (hs.joining next last howner).2 w (hlt.trans_le (List.getElem?_eq_none_iff.mp hnone))
  rw [hp] at hw
  exact Option.some.inj hw

theorem WorkerInv.join {next : ℕ} {last : Bool} (hs : s.WorkerInv)
    (howner : s.owner = .joining next last) (hjoin : s.join next last = some t) : t.WorkerInv := by
  obtain ⟨hrunning, hjoined⟩ := hs.joining next last howner
  rcases join_cases hjoin with ⟨hnone, rfl⟩ | ⟨worker, hworker, ⟨-, rfl⟩ | ⟨thread, -, hpoint, rfl⟩⟩
  · -- the loop has come to its end
    have hexited := hs.exited_of_joined howner hnone
    split
    · exact hs.destroyed hexited
    · exact { hs with stopped := fun _ _ => hexited, joining := nofun }
  · exact { hs with }
  · have hsame : ∀ w, (s.joined next last worker thread).pointOf w = s.pointOf w :=
      fun w => pointOf_joined hworker
    have hstopped : s.running ≠ true := by simp [hrunning]
    refine ⟨⟨?_, ?_, ?_⟩, ?_, hs.once, ?_⟩
    · intro h
      exact absurd h hstopped
    · intro h
      cases h
    · intro next' last' h
      cases h
      refine ⟨hrunning, ?_⟩
      intro w hlt
      rw [hsame]
      rcases Nat.lt_succ_iff_lt_or_eq.mp hlt with hlt | rfl
      · exact hjoined w hlt
      · rw [pointOf, hworker, ← hpoint]
        rfl
    · intro w
      rw [hsame]
      exact hs.waiting w
    · intro h
      exact absurd h hstopped

variable [DecidableEq τ]

theorem popTask_cases {woken : Multiset (Option τ)} (h : s.popTask w woken = some t) :
    (s.queue = [] ∧ s.running = true ∧
      t = (s.setEmpty (s.condEmpty.wait w)).setPoint w .waiting) ∨
    (s.queue = [] ∧ s.running = false ∧ t = s.setPoint w (.calling none)) ∨
    (∃ task rest, s.queue = task :: rest ∧ rest.length < M ∧
      ∃ condFull, s.condFull.notify woken = some condFull ∧
        t = ((s.dequeue w task rest).setFull condFull).setPoint w (.calling task)) ∨
    (M < s.queue.length ∧ t = s.fail) := by
  unfold popTask at h
  split at h
  · rename_i hqueue
    split at h
    · rename_i hrunning
      exact Or.inl ⟨hqueue, hrunning, (Option.some.inj h).symm⟩
    · rename_i hrunning
      exact Or.inr (Or.inl ⟨hqueue, by simpa using hrunning, (Option.some.inj h).symm⟩)
  · rename_i task rest hqueue
    refine Or.inr (Or.inr ?_)
    split at h
    · rename_i hsize
      rw [if_pos (Nat.zero_lt_of_lt hsize)] at h
      split at h
      · rename_i condFull hnotify
        exact Or.inl ⟨task, rest, hqueue, hsize, condFull, hnotify, (Option.some.inj h).symm⟩
      · cases h
    · rename_i hsize
      refine Or.inr ⟨?_, (Option.some.inj h).symm⟩
      rw [hqueue, List.length_cons]
      omega

theorem QueueInv.popTask {woken : Multiset (Option τ)} (hs : s.QueueInv)
    (hpop : s.popTask w woken = some t) : t.QueueInv := by
  rcases popTask_cases hpop with
    ⟨-, -, rfl⟩ | ⟨-, -, rfl⟩ | ⟨task, rest, hqueue, hlt, condFull, hnotify, rfl⟩ | ⟨-, rfl⟩
  · exact { hs with }
  · exact { hs with }
  · have hroom := hs.room
    rw [ThreadPool.room, hqueue, List.length_cons] at hroom
    refine ⟨fun _ => Nat.le_of_lt hlt, ?_⟩
    intro hasleep
    -- somebody was asleep, and has been signalled
    have hbefore : s.condFull.asleep ≠ 0 := by
      intro hzero
      have hle := Condition.asleep_notify_le hnotify
      rw [hzero, Multiset.le_zero] at hle
      exact hasleep hle
    have hsignalled := Condition.card_signalled_notify hnotify hbefore
    have := hroom hbefore
    show M - rest.length ≤ condFull.signalled.card
    omega
  · exact { hs with }

/-- `PopTask`, unless its assertion about the size of the queue fails. -/
theorem WorkerInv.popTask {woken : Multiset (Option τ)} (hs : s.WorkerInv)
    (hsound : t.failed = true → s.queue.length ≤ M) (hpoint : s.pointOf w = some .popping)
    (hpop : s.popTask w woken = some t) : t.WorkerInv := by
  rcases popTask_cases hpop with
    ⟨hqueue, -, rfl⟩ | ⟨-, -, rfl⟩ | ⟨task, rest, hqueue, -, condFull, -, rfl⟩ | ⟨hlarge, rfl⟩
  · exact hs.wait hpoint hqueue
  · exact hs.setPoint hpoint nofun nofun nofun nofun
  · have htaken : ((s.dequeue w task rest).setFull condFull).WorkerInv :=
      { hs with awake := fun hrunning _ => hs.awake hrunning (by simp [hqueue]) }
    exact htaken.setPoint hpoint nofun nofun nofun nofun
  · exact absurd (hsound rfl) (Nat.not_le_of_lt hlarge)

/-! ## Steps -/

/-- What a step does, by its action. -/
inductive Move (s : ThreadPool M τ) : PoolAction τ → ThreadPool M τ → Prop
  | start {numThreads : ℕ} (howner : s.owner = .idle) :
      Move s (.start numThreads) (s.start numThreads)
  | stop (howner : s.owner = .idle) : Move s .stop (s.stop false)
  | destroyRunning (howner : s.owner = .idle) (hrunning : s.running = true) :
      Move s .destroy (s.stop true)
  | destroy (howner : s.owner = .idle) (hrunning : s.running = false) : Move s .destroy s.destroyed
  | join {next : ℕ} {last : Bool} {t : ThreadPool M τ} (howner : s.owner = .joining next last)
      (hjoin : s.join next last = some t) : Move s .join t
  | runInline {task : Option τ} {woken : Multiset ℕ} (hworkers : s.workers = []) :
      Move s (.push task woken) (s.callInline task)
  | push {task : Option τ} {woken : Multiset ℕ} {t : ThreadPool M τ} (hworkers : s.workers ≠ [])
      (hpush : s.pushTask task woken = some t) : Move s (.push task woken) t
  | resumePush {wakeup : Wakeup} {task : Option τ} {woken : Multiset ℕ}
      {condFull : Condition (Option τ)} {t : ThreadPool M τ}
      (hresume : s.condFull.resume wakeup task = some condFull)
      (hpush : (s.setFull condFull).pushTask task woken = some t) :
      Move s (.resumePush wakeup task woken) t
  | test {w : ℕ} (hpoint : s.pointOf w = some .testing) :
      Move s (.test w) (s.setPoint w (if s.running then .popping else .exited))
  | pop {w : ℕ} {woken : Multiset (Option τ)} {t : ThreadPool M τ}
      (hpoint : s.pointOf w = some .popping) (hpop : s.popTask w woken = some t) :
      Move s (.pop w woken) t
  | resumePop {wakeup : Wakeup} {w : ℕ} {woken : Multiset (Option τ)} {condEmpty : Condition ℕ}
      {t : ThreadPool M τ} (hresume : s.condEmpty.resume wakeup w = some condEmpty)
      (hpop : (s.setEmpty condEmpty).popTask w woken = some t) :
      Move s (.resumePop wakeup w woken) t
  | call {w : ℕ} {task : Option τ} (hpoint : s.pointOf w = some (.calling task)) :
      Move s (.call w) (s.call w task)

theorem step_cases {action : PoolAction τ} (h : s.step action = some t) :
    s.failed = false ∧ s.owner ≠ .destroyed ∧ s.Move action t := by
  unfold step at h
  split at h
  · cases h
  · rename_i halive
    rw [not_or, Bool.not_eq_true] at halive
    refine ⟨halive.1, halive.2, ?_⟩
    cases action with
    | start | stop | test | pop =>
        dsimp only at h
        split at h
        · rename_i hpoint
          first
          | cases h
            exact .start hpoint
          | cases h
            exact .stop hpoint
          | cases h
            exact .test hpoint
          | exact .pop hpoint h
        · cases h
    | destroy =>
        dsimp only at h
        split at h
        · rename_i howner
          split at h <;> cases h
          · exact .destroyRunning howner ‹_›
          · rename_i hrunning
            exact .destroy howner (by simpa using hrunning)
        · cases h
    | join =>
        dsimp only at h
        split at h
        · exact .join ‹_› h
        · cases h
    | push task woken =>
        dsimp only at h
        split at h
        · cases h
          exact .runInline ‹_›
        · exact .push ‹_› h
    | resumePush | resumePop =>
        dsimp only at h
        split at h
        · first
          | exact .resumePush ‹_› h
          | exact .resumePop ‹_› h
        · cases h
    | call w =>
        dsimp only at h
        split at h
        · cases h
          exact .call ‹_›
        · cases h

theorem QueueInv.step {action : PoolAction τ} (hs : s.QueueInv) (hstep : s.step action = some t) :
    t.QueueInv := by
  obtain ⟨-, -, hmove⟩ := step_cases hstep
  cases hmove with
  | start =>
      unfold ThreadPool.start
      split
      · exact { hs with }
      · exact { hs with }
  | join howner hjoin =>
      rcases join_cases hjoin with ⟨-, rfl⟩ | ⟨worker, -, ⟨-, rfl⟩ | ⟨thread, -, -, rfl⟩⟩
      · split <;> exact { hs with }
      · exact { hs with }
      · exact { hs with }
  | push hworkers hpush =>
      exact .pushTask hs.size (fun h => (hs.room h).trans (Nat.le_succ _)) hpush
  | resumePush hresume hpush =>
      rename_i condFull
      have hroom : condFull.asleep ≠ 0 → s.room ≤ condFull.signalled.card + 1 := by
        intro hasleep
        have hbefore : s.condFull.asleep ≠ 0 := by
          intro hzero
          have hle := Condition.asleep_resume_le hresume
          rw [hzero, Multiset.le_zero] at hle
          exact hasleep hle
        exact (hs.room hbefore).trans (Condition.card_signalled_resume hresume)
      exact QueueInv.pushTask (s := s.setFull condFull) hs.size hroom hpush
  | pop hpoint hpop => exact hs.popTask hpop
  | resumePop hresume hpop =>
      rename_i condEmpty
      exact QueueInv.popTask (s := s.setEmpty condEmpty) { hs with } hpop
  | _ => exact { hs with }

/-- The point of a worker does not matter to `PopTask`. -/
theorem popTask_setPoint {woken : Multiset (Option τ)}
    (hsound : t.failed = true → s.queue.length ≤ M) (hpop : s.popTask w woken = some t) :
    (s.setPoint w point).popTask w woken = some t := by
  have htwice : ∀ (u : ThreadPool M τ) (q : WorkerPoint τ),
      (u.setPoint w point).setPoint w q = u.setPoint w q := by
    intro u q
    simp [ThreadPool.setPoint, List.modify_modify_eq, Function.comp_def]
  have hsame : (s.setPoint w point).queue = s.queue := rfl
  rw [← hpop]
  cases hqueue : s.queue with
  | nil =>
      simp only [ThreadPool.popTask, hsame, hqueue]
      show (if s.running then some
        (((s.setEmpty (s.condEmpty.wait w)).setPoint w point).setPoint w .waiting)
        else some ((s.setPoint w point).setPoint w (.calling none))) = _
      rw [htwice, htwice]
  | cons task rest =>
      have hlt : rest.length < M := by
        by_contra hge
        have hfail : t = s.fail := by
          simpa [ThreadPool.popTask, hqueue, hge] using hpop.symm
        have hsize := hsound (hfail ▸ rfl)
        rw [hqueue, List.length_cons] at hsize
        omega
      have hfull : (s.setPoint w point).condFull = s.condFull := rfl
      simp only [ThreadPool.popTask, hsame, hqueue, hfull, if_pos hlt,
        if_pos (Nat.zero_lt_of_lt hlt)]
      cases s.condFull.notify woken with
      | none => rfl
      | some condFull =>
          exact congrArg some (htwice ((s.dequeue w task rest).setFull condFull) (.calling task))

/-- As long as no assertion about the size of the queue fails. -/
theorem WorkerInv.step {action : PoolAction τ} (hs : s.WorkerInv)
    (hsound : t.failed = true → s.queue.length ≤ M) (hstep : s.step action = some t) :
    t.WorkerInv := by
  obtain ⟨-, -, hmove⟩ := step_cases hstep
  cases hmove with
  | start howner => exact hs.start howner
  | stop howner => exact hs.stop
  | destroyRunning howner hrunning => exact hs.stop
  | destroy howner hrunning => exact hs.destroyed (hs.stopped howner hrunning)
  | join howner hjoin => exact hs.join howner hjoin
  | runInline hworkers => exact { hs with }
  | push hworkers hpush => exact hs.pushTask hpush
  | resumePush hresume hpush =>
      rename_i condFull
      exact WorkerInv.pushTask (s := s.setFull condFull) { hs with } hpush
  | test hpoint =>
      apply hs.setPoint hpoint nofun nofun
      · split <;> simp
      · split
        · intro h
          cases h
        · intro _
          simpa using ‹¬ s.running = true›
  | pop hpoint hpop => exact hs.popTask hsound hpoint hpop
  | resumePop hresume hpop =>
      rename_i w woken condEmpty
      obtain ⟨hpoint, hresumed⟩ := hs.resume hresume
      have hin : (s.setEmpty condEmpty).pointOf w ≠ none := by
        show s.pointOf w ≠ none
        simp [hpoint]
      have hpop' : ((s.setEmpty condEmpty).setPoint w .popping).popTask w woken = some t :=
        popTask_setPoint (s := s.setEmpty condEmpty) hsound hpop
      exact hresumed.popTask hsound (pointOf_setPoint_self hin) hpop'
  | call hpoint =>
      rename_i w task
      have hran :
          ({ s with ran := s.ran ++ (task.map (w, ·)).toList } : ThreadPool M τ).WorkerInv :=
        { hs with }
      exact hran.setPoint hpoint nofun nofun nofun nofun

end ThreadPool

end YxAlpha
