import YxAlpha.Thread.PoolInvariant

/-!
# Producers and the end of the workers

`Stop` notifies the workers only.  A producer that sleeps on `cond_full_` then depends on
the tasks the workers still take: once all of them have left `RunTask`, every call inside
`PushTask` needs room of its own.  So producers are left asleep exactly if there is too
little room when the last worker leaves, or when somebody calls `PushTask` after that
(`strands_none_iff`).
-/

namespace YxAlpha

def PoolAction.Resumes {τ : Type*} : PoolAction τ → Prop
  | .resumePush _ _ _ => True
  | _ => False

namespace ThreadPool

variable {M : ℕ} {τ : Type*} {s t : ThreadPool M τ} {w : ℕ} {p : WorkerPoint τ}

/-- All workers of the round have left `RunTask`. -/
def AllExited (s : ThreadPool M τ) : Prop :=
  s.workers ≠ [] ∧ ∀ worker ∈ s.workers, worker.point = .exited

/-- No producer sleeps that nobody will wake. -/
def NoneStranded (s : ThreadPool M τ) : Prop := s.AllExited → s.condFull.asleep = 0

/-- The calls of `PushTask` that have found the queue full and have not yet got through. -/
def pending (s : ThreadPool M τ) : ℕ := s.condFull.waiters.card

/-- There is room for everybody inside `PushTask`, if no worker is left. -/
def Roomy (s : ThreadPool M τ) : Prop := s.AllExited → s.pending ≤ s.room

/-! ## Points -/

theorem allExited_iff :
    s.AllExited ↔ s.workers ≠ [] ∧ ∀ w p, s.pointOf w = some p → p = .exited := by
  apply and_congr_right
  intro _
  constructor
  · intro h w p hp
    obtain ⟨worker, hworker, rfl⟩ := Option.map_eq_some_iff.mp hp
    exact h worker (List.mem_of_getElem? hworker)
  · intro h worker hmem
    obtain ⟨w, hw⟩ := List.getElem?_of_mem hmem
    exact h w worker.point (by rw [pointOf, hw]; rfl)

theorem not_allExited (hpoint : s.pointOf w = some p) (hp : p ≠ .exited) : ¬ s.AllExited :=
  fun h => hp ((allExited_iff.mp h).2 w p hpoint)

theorem roomy_of_point (hpoint : s.pointOf w = some p) (hp : p ≠ .exited) : s.Roomy :=
  fun h => absurd h (not_allExited hpoint hp)

/-! ## Room -/

/-- A call of `PushTask` goes to sleep or takes room. -/
theorem pushTask_room {task : Option τ} {woken : Multiset ℕ} (hM : 0 < M)
    (hpush : s.pushTask task woken = some t) :
    t.workers = s.workers ∧ t.failed = s.failed ∧ t.owner = s.owner ∧
      (s.room = 0 ∧ t.room = 0 ∧ t.condFull = s.condFull.wait task ∨
        t.room + 1 = s.room ∧ t.condFull = s.condFull) := by
  rcases pushTask_cases hpush with ⟨-, hfull, rfl⟩ | ⟨hlt, condEmpty, -, rfl⟩ | ⟨hzero, -, -⟩
  · have hroom : s.room = 0 := Nat.sub_eq_zero_of_le hfull
    exact ⟨rfl, rfl, rfl, Or.inl ⟨hroom, hroom, rfl⟩⟩
  · refine ⟨rfl, rfl, rfl, Or.inr ⟨?_, rfl⟩⟩
    have := hlt hM
    show M - (s.queue ++ [task]).length + 1 = M - s.queue.length
    rw [List.length_append, List.length_singleton]
    omega
  · omega

/-! ## The last to leave -/

/-- The worker is the last to leave. -/
def LastExit (s : ThreadPool M τ) (w : ℕ) : Prop :=
  s.running = false ∧ ∀ v < s.workers.length, v ≠ w → s.pointOf v = some .exited

theorem allExited_test (hpoint : s.pointOf w = some .testing) :
    (s.setPoint w (if s.running then .popping else .exited)).AllExited ↔ s.LastExit w := by
  have hin : s.pointOf w ≠ none := by simp [hpoint]
  cases hrunning : s.running with
  | true =>
      apply iff_of_false (not_allExited (pointOf_setPoint_self hin) (by simp))
      intro hlast
      rw [hlast.1] at hrunning
      cases hrunning
  | false =>
      rw [allExited_iff]
      constructor
      · rintro ⟨-, hall⟩
        refine ⟨hrunning, ?_⟩
        intro v hv hne
        have hsome : s.pointOf v = some (s.workers.get ⟨v, hv⟩).point := by simp [pointOf, hv]
        rw [hsome]
        exact congrArg some (hall v _ (by rw [pointOf_setPoint_ne hne, hsome]))
      · rintro ⟨-, hall⟩
        refine ⟨workers_ne_nil (w := w) (by simp [pointOf_setPoint_self hin]), ?_⟩
        intro v p hp
        by_cases hv : v = w
        · rw [hv, pointOf_setPoint_self hin] at hp
          exact (Option.some.inj hp).symm
        · rw [pointOf_setPoint_ne hv] at hp
          have hlt : v < s.workers.length := by
            by_contra hge
            simp [pointOf, Nat.le_of_not_lt hge] at hp
          rw [hall v hlt hv] at hp
          exact (Option.some.inj hp).symm

theorem Roomy.join {next : ℕ} {last : Bool} {worker : Worker τ} {thread : Thread}
    (hroomy : s.Roomy) (hworker : s.workers[next]? = some worker) :
    (s.joined next last worker thread).Roomy := by
  intro hexited
  refine hroomy (allExited_iff.mpr ⟨?_, ?_⟩)
  · exact workers_ne_nil (w := next) (by simp [pointOf, hworker])
  · intro w p hp
    rw [← pointOf_joined hworker] at hp
    exact (allExited_iff.mp hexited).2 w p hp

variable [DecidableEq τ]

instance decidableAllExited (s : ThreadPool M τ) : Decidable s.AllExited :=
  inferInstanceAs (Decidable (s.workers ≠ [] ∧ ∀ worker ∈ s.workers, worker.point = .exited))

instance decidableLastExit (s : ThreadPool M τ) (w : ℕ) : Decidable (s.LastExit w) :=
  inferInstanceAs (Decidable (s.running = false ∧
    ∀ v < s.workers.length, v ≠ w → s.pointOf v = some .exited))

/-- However the calls inside `PushTask` resume, no producer is left asleep; in particular none
is now. -/
def Released (s : ThreadPool M τ) : Prop :=
  ∀ more : List (PoolAction τ), (∀ action ∈ more, action.Resumes) →
    (machine M τ).Throughout NoneStranded s more

theorem pending_resume {wakeup : Wakeup} {task : Option τ} {condFull : Condition (Option τ)}
    (hresume : s.condFull.resume wakeup task = some condFull) :
    s.pending = condFull.waiters.card + 1 := by
  rw [pending, Condition.waiters_resume hresume, Multiset.card_cons]

/-- A call that resumes gives up its place among the waiters for room, or takes it again. -/
theorem resumePush_room {wakeup : Wakeup} {task : Option τ} {woken : Multiset ℕ}
    {condFull : Condition (Option τ)} (hM : 0 < M)
    (hresume : s.condFull.resume wakeup task = some condFull)
    (hpush : (s.setFull condFull).pushTask task woken = some t) :
    s.room = 0 ∧ t.room = 0 ∧ t.pending = s.pending ∧ t.condFull.asleep ≠ 0 ∨
      t.room + 1 = s.room ∧ t.pending + 1 = s.pending ∧ t.condFull = condFull := by
  obtain ⟨-, -, -, hroom⟩ := pushTask_room (s := s.setFull condFull) hM hpush
  have hpending := pending_resume hresume
  rcases hroom with ⟨hfull, hfull', hwait⟩ | ⟨hroom, hsame⟩
  · refine Or.inl ⟨hfull, hfull', ?_, ?_⟩
    · rw [pending, hwait, Condition.waiters_wait, Multiset.card_cons, hpending]
      rfl
    · rw [hwait]
      exact Multiset.cons_ne_zero
  · refine Or.inr ⟨hroom, ?_, hsame⟩
    rw [pending, hsame, hpending]
    rfl

theorem Roomy.resumePush {wakeup : Wakeup} {task : Option τ} {woken : Multiset ℕ}
    {condFull : Condition (Option τ)} (hM : 0 < M) (hroomy : s.Roomy)
    (hresume : s.condFull.resume wakeup task = some condFull)
    (hpush : (s.setFull condFull).pushTask task woken = some t) : t.Roomy := by
  intro hexited
  have hworkers : t.workers = s.workers := (pushTask_room (s := s.setFull condFull) hM hpush).1
  have hbefore : s.AllExited := by
    rw [AllExited, hworkers] at hexited
    exact hexited
  have hle := hroomy hbefore
  have hpending := pending_resume hresume
  rcases resumePush_room hM hresume hpush with ⟨hfull, -, -, -⟩ | ⟨hroom, hgone, -⟩
  · omega
  · omega

/-- With room for everybody nobody sleeps: those asleep would be one too many. -/
theorem QueueInv.noneStranded (hs : s.QueueInv) (hroomy : s.Roomy) : s.NoneStranded := by
  intro hexited
  by_contra hasleep
  have hsignalled := hs.room hasleep
  have hpending := hroomy hexited
  rw [pending, Condition.waiters, Multiset.card_add] at hpending
  have := Multiset.card_pos.mpr hasleep
  omega

theorem released_of_roomy (hM : 0 < M) (hs : s.QueueInv) (hroomy : s.Roomy) : s.Released := by
  intro more hmore
  refine (Machine.throughout_of_actions (m := machine M τ) (I := fun s => s.QueueInv ∧ s.Roomy)
    (G := PoolAction.Resumes) ?_ ⟨hs, hroomy⟩ hmore).mono fun s hs => hs.1.noneStranded hs.2
  intro s action t ⟨hs, hroomy⟩ hresumes hstep
  refine ⟨hs.step hstep, ?_⟩
  obtain ⟨-, -, hmove⟩ := step_cases hstep
  cases hmove with
  | resumePush hresume hpush => exact hroomy.resumePush hM hresume hpush
  | _ => exact absurd hresumes id

/-- When nobody sleeps and somebody is inside `PushTask`, somebody can resume. -/
theorem exists_resumePush (halive : s.failed = false) (hpresent : s.owner ≠ .destroyed)
    (hasleep : s.condFull.asleep = 0) (hpending : 0 < s.pending) :
    ∃ task woken condFull t, s.condFull.resume .signalled task = some condFull ∧
      (s.setFull condFull).pushTask task woken = some t ∧
      s.step (.resumePush .signalled task woken) = some t := by
  have hsignalled : s.condFull.signalled ≠ 0 := by
    rw [← Multiset.card_pos]
    rwa [pending, Condition.waiters, hasleep, zero_add] at hpending
  obtain ⟨task, htask⟩ := Multiset.exists_mem_of_ne_zero hsignalled
  obtain ⟨condFull, hresume⟩ := Condition.exists_resume htask
  obtain ⟨woken, t, hpush⟩ := (s.setFull condFull).exists_pushTask task
  refine ⟨task, woken, condFull, t, hresume, hpush, ?_⟩
  rw [step, if_neg (by simp [halive, hpresent])]
  simp [hresume, hpush]

/-- Without room for everybody, somebody is left asleep in the end. -/
theorem exists_stranded (hM : 0 < M) (halive : s.failed = false) (hpresent : s.owner ≠ .destroyed)
    (hexited : s.AllExited) (hroom : s.room < s.pending) :
    ∃ more : List (PoolAction τ), (∀ action ∈ more, action.Resumes) ∧
      ¬ (machine M τ).Throughout NoneStranded s more := by
  -- by induction on the room: a call that resumes takes some of it
  induction hn : s.room generalizing s with
  | zero | succ n ih =>
      by_cases hasleep : s.condFull.asleep = 0
      · -- somebody resumes, and takes room or goes to sleep again
        obtain ⟨task, woken, condFull, t, hresume, hpush, hstep⟩ :=
          exists_resumePush halive hpresent hasleep (Nat.zero_lt_of_lt hroom)
        obtain ⟨hworkers, hfailed, howner, -⟩ := pushTask_room (s := s.setFull condFull) hM hpush
        have hexited' : t.AllExited := by
          rw [AllExited, hworkers]
          exact hexited
        rcases resumePush_room hM hresume hpush with ⟨-, -, -, hslept⟩ | ⟨hless, hgone, -⟩
        · refine ⟨[.resumePush .signalled task woken], by simp [PoolAction.Resumes], ?_⟩
          exact fun h => hslept ((h.2 t hstep) hexited')
        · first
          | omega
          | obtain ⟨more, hmore, hstranded⟩ := ih (hfailed.trans halive)
              (fun h => hpresent (howner.symm.trans h)) hexited' (by omega) (by omega)
            refine ⟨.resumePush .signalled task woken :: more, ?_, fun h => hstranded (h.2 t hstep)⟩
            rw [List.forall_mem_cons]
            exact ⟨trivial, hmore⟩
      · exact ⟨[], by simp, fun h => hasleep (h hexited)⟩

theorem released_iff (hM : 0 < M) (hs : s.QueueInv) (halive : s.failed = false)
    (hpresent : s.owner ≠ .destroyed) : s.Released ↔ s.Roomy := by
  refine ⟨?_, released_of_roomy hM hs⟩
  intro hreleased hexited
  by_contra hroom
  obtain ⟨more, hmore, hstranded⟩ :=
    exists_stranded hM halive hpresent hexited (Nat.lt_of_not_le hroom)
  exact hstranded (hreleased more hmore)

/-- A pool that takes no step strands nobody later. -/
theorem released_of_stuck (hstuck : ∀ action, s.step action = none) (hs : s.NoneStranded) :
    s.Released := by
  intro more _
  cases more with
  | nil => exact hs
  | cons action more =>
      refine ⟨hs, ?_⟩
      intro t ht
      rw [show (machine M τ).step s action = none from hstuck action] at ht
      cases ht

theorem released_destroyed : s.destroyed.Released :=
  released_of_stuck (fun action => by simp [step, destroyed]) fun h => absurd rfl h.1

/-! ## Steps -/

/-- When the last worker leaves, and when `PushTask` is called after that, the queue has room
for every call inside `PushTask`. -/
def RoomLeft (s : ThreadPool M τ) : PoolAction τ → Prop
  | .test w => s.LastExit w → s.pending ≤ s.room
  | .push _ _ => s.AllExited → s.pending < s.room
  | _ => True

theorem popTask_point {woken : Multiset (Option τ)} (hsize : s.queue.length ≤ M)
    (hin : s.pointOf w ≠ none) (hpop : s.popTask w woken = some t) :
    ∃ p, t.pointOf w = some p ∧ p ≠ .exited := by
  rcases popTask_cases hpop with
    ⟨-, -, rfl⟩ | ⟨-, -, rfl⟩ | ⟨task, rest, -, -, condFull, -, rfl⟩ | ⟨hlarge, -⟩
  · exact ⟨_, pointOf_setPoint_self hin, by simp⟩
  · exact ⟨_, pointOf_setPoint_self hin, by simp⟩
  · exact ⟨_, pointOf_setPoint_self hin, by simp⟩
  · omega

instance decidableRoomLeft (s : ThreadPool M τ) : ∀ action, Decidable (s.RoomLeft action)
  | .test w => inferInstanceAs (Decidable (s.LastExit w → s.pending ≤ s.room))
  | .push _ _ => inferInstanceAs (Decidable (s.AllExited → s.pending < s.room))
  | .start _ | .stop | .destroy | .join | .resumePush _ _ _ | .pop _ _ | .resumePop _ _ _
  | .call _ => isTrue trivial

/-- A step takes the room of a producer, or leaves it, as `RoomLeft` says. -/
theorem released_step {action : PoolAction τ} (hM : 0 < M) (hs : s.QueueInv ∧ s.WorkerInv)
    (hreleased : s.Released) (hstep : s.step action = some t) :
    t.Released ↔ s.RoomLeft action := by
  have ht := hs.1.step hstep
  have hsize := hs.1.size hM
  obtain ⟨halive, hpresent, hmove⟩ := step_cases hstep
  have hroomy := (released_iff hM hs.1 halive hpresent).mp hreleased
  have hfail : s.fail.Released :=
    released_of_stuck (fun action => by simp [step, fail]) (hs.1.noneStranded hroomy)
  cases hmove with
  | start howner =>
      refine iff_of_true ?_ trivial
      by_cases hrunning : s.running = true
      · rw [ThreadPool.start, if_pos hrunning]
        exact hfail
      · apply released_of_roomy hM ht
        rw [ThreadPool.start, if_neg hrunning]
        rintro ⟨hne, hall⟩
        obtain ⟨worker, hworker⟩ := List.exists_mem_of_ne_nil _ hne
        have hpoint := hall worker hworker
        rw [List.eq_of_mem_replicate hworker] at hpoint
        cases hpoint
  | stop howner => exact iff_of_true (released_of_roomy hM ht hroomy) trivial
  | destroyRunning howner hrunning => exact iff_of_true (released_of_roomy hM ht hroomy) trivial
  | destroy howner hrunning => exact iff_of_true released_destroyed trivial
  | join howner hjoin =>
      refine iff_of_true ?_ trivial
      rcases join_cases hjoin with ⟨-, rfl⟩ | ⟨worker, hworker, ⟨-, rfl⟩ | ⟨thread, -, -, rfl⟩⟩
      · split at ht
        · rename_i hlast
          rw [if_pos hlast]
          exact released_destroyed
        · rename_i hlast
          rw [if_neg hlast]
          exact released_of_roomy hM ht hroomy
      · exact hfail
      · exact released_of_roomy hM ht (hroomy.join hworker)
  | runInline hworkers =>
      exact iff_of_true (released_of_roomy hM ht fun h => absurd hworkers h.1)
        fun h => absurd hworkers h.1
  | push hworkers hpush =>
      obtain ⟨hsame, hfailed, howner, hroom⟩ := pushTask_room hM hpush
      rw [released_iff hM ht (hfailed.trans halive) fun h => hpresent (howner.symm.trans h)]
      have hexited : t.AllExited ↔ s.AllExited := by rw [AllExited, hsame, AllExited]
      apply imp_congr hexited
      rcases hroom with ⟨hfull, hfull', hwait⟩ | ⟨hless, hcond⟩
      · -- the queue is full: one call more, and no room
        have hpending : t.pending = s.pending + 1 := by
          rw [pending, hwait, Condition.waiters_wait, Multiset.card_cons]
          rfl
        omega
      · -- the call takes the room of another
        have hpending : t.pending = s.pending := by rw [pending, hcond, pending]
        omega
  | resumePush hresume hpush =>
      exact iff_of_true (released_of_roomy hM ht (hroomy.resumePush hM hresume hpush)) trivial
  | test hpoint =>
      rw [released_iff hM ht halive hpresent]
      exact imp_congr (allExited_test hpoint) Iff.rfl
  | pop hpoint hpop =>
      obtain ⟨p, hp, hin⟩ := popTask_point hsize (by simp [hpoint]) hpop
      exact iff_of_true (released_of_roomy hM ht (roomy_of_point hp hin)) trivial
  | resumePop hresume hpop =>
      rename_i w woken condEmpty
      have hwaiting : s.pointOf w ≠ none := by simp [(hs.2.resume hresume).1]
      obtain ⟨p, hp, hin⟩ := popTask_point (s := s.setEmpty condEmpty) hsize hwaiting hpop
      exact iff_of_true (released_of_roomy hM ht (roomy_of_point hp hin)) trivial
  | call hpoint =>
      rename_i w task
      have hin : ({ s with ran := s.ran ++ (task.map (w, ·)).toList } : ThreadPool M τ).pointOf w ≠
          none := by
        show s.pointOf w ≠ none
        simp [hpoint]
      have hp : (s.call w task).pointOf w = some .testing := pointOf_setPoint_self hin
      exact iff_of_true (released_of_roomy hM ht (roomy_of_point hp (by simp))) trivial

/-- **No producer is stranded** in a run, however the calls inside `PushTask` resume, exactly
if there is room for all of them whenever the workers are gone. -/
theorem strands_none_iff (hM : 0 < M) (actions : List (PoolAction τ)) :
    (machine M τ).Throughout Released (machine M τ).init actions ↔
      (machine M τ).EachStep RoomLeft (machine M τ).init actions := by
  apply Machine.throughout_iff_eachStep (m := machine M τ) (I := fun s => s.QueueInv ∧ s.WorkerInv)
  · intro s action t hs hstep
    exact ⟨hs.1.step hstep, hs.2.step (fun _ => hs.1.size hM) hstep⟩
  · intro s action t hs hreleased hstep
    exact released_step hM hs hreleased hstep
  · exact ⟨queueInv_new, workerInv_new⟩
  · exact released_of_roomy hM queueInv_new fun h => absurd rfl h.1

/-- The worker takes one more task after `Stop`, and a producer gets through. -/
def drainingRun : List (PoolAction ℕ) :=
  [.start 1, .push (some 0) 0, .test 0, .push (some 1) 0, .stop, .pop 0 {some 1},
    .resumePush .signalled (some 1) 0, .call 0, .test 0, .join, .join]

theorem strands_none_iff_draining :
    (machine 1 ℕ).Throughout Released (machine 1 ℕ).init drainingRun :=
  (strands_none_iff Nat.one_pos drainingRun).mpr (by decide)

/-- `Stop` is called while the worker runs a task, the queue is full and a producer sleeps. -/
def strandingRun : List (PoolAction ℕ) :=
  [.start 1, .push (some 0) 0, .test 0, .pop 0 0, .push (some 1) 0, .push (some 2) 0, .stop,
    .call 0, .test 0, .join, .join]

theorem producer_stranded : ∃ s : ThreadPool 1 ℕ,
    (machine 1 ℕ).exec (machine 1 ℕ).init strandingRun = some s ∧ s.owner = .idle ∧
      s.AllExited ∧ s.condFull.asleep = {some 2} ∧ s.condFull.signalled = 0 ∧ ¬ s.NoneStranded := by
  refine ⟨_, rfl, rfl, ?_, rfl, rfl, ?_⟩
  · exact ⟨List.cons_ne_nil _ _, by decide⟩
  · intro hnone
    exact absurd (hnone ⟨List.cons_ne_nil _ _, by decide⟩) (by decide)

end ThreadPool

end YxAlpha
