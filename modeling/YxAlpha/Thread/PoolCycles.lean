import YxAlpha.Thread.PoolInvariant

/-!
# Rounds of the pool

`Start` begins a round and `Stop` joins its workers, but keeps the thread objects.  A second
`Stop` therefore joins them again, which `Thread::Join` asserts against: rounds are safe
exactly if every `Stop` finds the pool running, or without workers (`cycles_safe_iff`).
-/

namespace YxAlpha

def PoolAction.ByOwner {τ : Type*} : PoolAction τ → Prop
  | .start _ | .stop | .destroy | .join => True
  | _ => False

namespace ThreadPool

variable {M : ℕ} {τ : Type*} {s t u : ThreadPool M τ} {w : ℕ} {point : WorkerPoint τ}

/-- No assertion has failed, and the workers of the rounds that are over have been joined
once. -/
structure CyclesSafe (s : ThreadPool M τ) : Prop where
  asserts : s.failed = false
  discarded : ∀ worker ∈ s.discarded, worker.joins = 1
  joined : s.running = false → ∀ worker ∈ s.workers, worker.joins = 1

/-- Each `Start` comes first or after a `Stop`; tasks are pushed into a bounded pool only. -/
def Proper (s : ThreadPool M τ) : PoolAction τ → Prop
  | .start _ => s.running = false
  | .push _ _ => 0 < M
  | _ => True

/-- `Stop` finds the pool running, or without workers. -/
def EndsRound (s : ThreadPool M τ) : PoolAction τ → Prop
  | .stop => s.running = true ∨ s.workers = []
  | _ => True

/-! ## The threads of a round -/

/-- The thread objects, each with the number of its joins. -/
def threads (s : ThreadPool M τ) : List (Thread × ℕ) :=
  s.workers.map fun worker => (worker.thread, worker.joins)

/-- So many threads have been joined, and so many have not. -/
def Round (s : ThreadPool M τ) (joined left : ℕ) : Prop :=
  s.threads = List.replicate joined (⟨true, true⟩, 1) ++ List.replicate left (⟨true, false⟩, 0)

/-- What a step of a worker or a producer leaves as it is. -/
structure SameRound (s t : ThreadPool M τ) : Prop where
  threads : t.threads = s.threads
  owner : t.owner = s.owner
  running : t.running = s.running
  discarded : t.discarded = s.discarded

theorem SameRound.refl (s : ThreadPool M τ) : SameRound s s := ⟨rfl, rfl, rfl, rfl⟩

theorem sameRound_setPoint (h : SameRound s t) : SameRound s (t.setPoint w point) := by
  refine { h with threads := ?_ }
  rw [← h.threads]
  apply List.ext_getElem?
  intro k
  simp only [threads, setPoint, List.getElem?_map, List.getElem?_modify]
  cases t.workers[k]? with
  | none => rfl
  | some worker => by_cases hk : w = k <;> simp [hk]

theorem sameRound_pushTask {task : Option τ} {woken : Multiset ℕ}
    (hpush : s.pushTask task woken = some t) : SameRound s t := by
  rcases pushTask_cases hpush with ⟨-, -, rfl⟩ | ⟨-, condEmpty, -, rfl⟩ | ⟨-, -, rfl⟩
  · exact ⟨rfl, rfl, rfl, rfl⟩
  · exact ⟨rfl, rfl, rfl, rfl⟩
  · exact ⟨rfl, rfl, rfl, rfl⟩

theorem Round.joins {n : ℕ} (h : s.Round n 0) : ∀ worker ∈ s.workers, worker.joins = 1 := by
  intro worker hworker
  have hmem : (worker.thread, worker.joins) ∈ s.threads := List.mem_map_of_mem hworker
  rw [h, List.replicate_zero, List.append_nil] at hmem
  exact congrArg Prod.snd (List.eq_of_mem_replicate hmem)

/-- The next thread to be joined. -/
theorem Round.next {next left : ℕ} (h : s.Round next left) :
    (s.workers[next]?).map (fun worker => (worker.thread, worker.joins)) =
      if 0 < left then some (⟨true, false⟩, 0) else none := by
  rw [← List.getElem?_map]
  show s.threads[next]? = _
  rw [h, List.getElem?_append_right (by simp)]
  simp [List.getElem?_replicate]

theorem Round.joined {next left : ℕ} {last : Bool} {worker : Worker τ} (h : s.Round next (left + 1))
    (hjoins : worker.joins = 0) :
    (s.joined next last worker ⟨true, true⟩).Round (next + 1) left := by
  show (s.workers.set next _).map _ = _
  rw [List.map_set]
  show s.threads.set next (⟨true, true⟩, worker.joins + 1) = _
  rw [h, hjoins, List.set_append_right _ _ (by simp), List.length_replicate, Nat.sub_self,
    List.replicate_succ, List.set_cons_zero, List.replicate_succ', List.append_assoc]
  rfl

/-! ## Rounds that end -/

/-- The threads of the round, by where the owner is. -/
structure RoundInv (s : ThreadPool M τ) : Prop where
  discarded : ∀ worker ∈ s.discarded, worker.joins = 1
  running : s.running = true → ∃ left, s.Round 0 left
  stopped : s.owner = .idle → s.running = false → ∃ joined, s.Round joined 0
  joining : ∀ next last, s.owner = .joining next last → ∃ left, s.Round next left
  destroyed : s.owner = .destroyed → s.Round 0 0

structure CycleInv (s : ThreadPool M τ) : Prop extends s.RoundInv where
  queue : s.QueueInv
  workers : s.WorkerInv
  asserts : s.failed = false
  /-- Nothing is ever in the queue of a pool without bound. -/
  unused : M = 0 → s.queue = [] ∧ s.condFull.waiters = 0

theorem cycleInv_new : (new : ThreadPool M τ).CycleInv where
  queue := queueInv_new
  workers := workerInv_new
  asserts := rfl
  unused _ := ⟨rfl, rfl⟩
  discarded := nofun
  running h := by cases h
  stopped _ _ := ⟨0, rfl⟩
  joining _ _ h := by cases h
  destroyed h := by cases h

theorem CycleInv.size (hs : s.CycleInv) : s.queue.length ≤ M := by
  rcases Nat.eq_zero_or_pos M with hM | hM
  · simp [(hs.unused hM).1]
  · exact hs.queue.size hM

theorem SameRound.round {joined left : ℕ} (h : SameRound s t) :
    t.Round joined left ↔ s.Round joined left := by
  unfold Round
  rw [h.threads]

theorem RoundInv.same (hs : s.RoundInv) (h : SameRound s t) : t.RoundInv where
  discarded := h.discarded ▸ hs.discarded
  running hrunning := by
    simp only [h.round]
    exact hs.running (h.running ▸ hrunning)
  stopped howner hrunning := by
    simp only [h.round]
    exact hs.stopped (h.owner ▸ howner) (h.running ▸ hrunning)
  joining next last howner := by
    simp only [h.round]
    exact hs.joining next last (h.owner ▸ howner)
  destroyed howner := h.round.mpr (hs.destroyed (h.owner ▸ howner))

/-! ### The owner -/

theorem RoundInv.start {numThreads : ℕ} (hs : s.RoundInv) (howner : s.owner = .idle)
    (hrunning : s.running = false) : (s.start numThreads).RoundInv := by
  obtain ⟨joined, hround⟩ := hs.stopped howner hrunning
  rw [ThreadPool.start, if_neg (by simp [hrunning])]
  refine ⟨?_, fun _ => ⟨numThreads, ?_⟩, nofun, ?_, ?_⟩
  · intro worker hworker
    rcases List.mem_append.mp hworker with h | h
    · exact hs.discarded worker h
    · exact hround.joins worker h
  · show (List.replicate numThreads (⟨⟨true, false⟩, .testing, 0⟩ : Worker τ)).map _ = _
    simp
  · intro next last h
    rw [show s.owner = .joining next last from h] at howner
    cases howner
  · intro h
    rw [show s.owner = .destroyed from h] at howner
    cases howner

theorem RoundInv.stop {last : Bool} {left : ℕ} (hs : s.RoundInv) (hround : s.Round 0 left) :
    (s.stop last).RoundInv := by
  refine ⟨hs.discarded, nofun, nofun, ?_, nofun⟩
  intro next last' h
  cases h
  exact ⟨left, hround⟩

theorem RoundInv.destroyed_of_round {joined : ℕ} (hs : s.RoundInv) (hround : s.Round joined 0)
    (hrunning : s.running = false) : s.destroyed.RoundInv := by
  refine ⟨?_, ?_, nofun, nofun, fun _ => rfl⟩
  · intro worker hworker
    rcases List.mem_append.mp hworker with h | h
    · exact hs.discarded worker h
    · exact hround.joins worker h
  · intro h
    rw [show s.destroyed.running = s.running from rfl, hrunning] at h
    cases h

/-- Each join of the loop finds a thread that has not been joined. -/
theorem RoundInv.join {next : ℕ} {last : Bool} (hs : s.RoundInv) (hrunning : s.running = false)
    (howner : s.owner = .joining next last) (hjoin : s.join next last = some t) :
    t.RoundInv ∧ t.failed = s.failed ∧ t.queue = s.queue ∧ t.condFull = s.condFull := by
  obtain ⟨left, hround⟩ := hs.joining next last howner
  have hnext := hround.next
  have hstopped : s.running ≠ true := by simp [hrunning]
  rcases join_cases hjoin with ⟨hnone, rfl⟩ | ⟨worker, hworker, hcases⟩
  · -- the loop ends: no thread is left
    rw [hnone] at hnext
    have hleft : left = 0 := by
      by_contra hne
      rw [if_pos (Nat.pos_of_ne_zero hne)] at hnext
      cases hnext
    rw [hleft] at hround
    split
    · exact ⟨hs.destroyed_of_round hround hrunning, rfl, rfl, rfl⟩
    · refine ⟨?_, rfl, rfl, rfl⟩
      exact ⟨hs.discarded, fun h => absurd h hstopped, fun _ _ => ⟨next, hround⟩, nofun, nofun⟩
  · rw [hworker] at hnext
    cases left with
    | zero => cases hnext
    | succ left =>
        have hthread : (worker.thread, worker.joins) = (⟨true, false⟩, 0) := Option.some.inj hnext
        obtain ⟨hthread, hjoins⟩ := Prod.ext_iff.mp hthread
        have hjoined : worker.thread.join = some ⟨true, true⟩ := by
          rw [show worker.thread = ⟨true, false⟩ from hthread]
          rfl
        rcases hcases with ⟨hfails, -⟩ | ⟨thread, hthread', -, rfl⟩
        · -- the assertions of `Join` hold
          rw [hjoined] at hfails
          cases hfails
        · rw [hjoined] at hthread'
          cases hthread'
          refine ⟨⟨hs.discarded, fun h => absurd h hstopped, nofun, ?_, nofun⟩, rfl, rfl, rfl⟩
          intro next' last' h
          cases h
          exact ⟨left, hround.joined hjoins⟩

/-! ### When the calls have returned -/

/-- An assertion has failed, or will at the next join. -/
def Doomed (s : ThreadPool M τ) : Prop :=
  s.failed = true ∨ ∃ last joined, s.owner = .joining 0 last ∧ s.Round (joined + 1) 0

/-- No call of the owner is under way, or one has ended in a failed assertion. -/
def Returned (s : ThreadPool M τ) : Prop :=
  s.failed = true ∨ ∀ next last, s.owner ≠ .joining next last

theorem CycleInv.safe (hs : s.CycleInv) (hreturned : s.Returned) : s.CyclesSafe where
  asserts := hs.asserts
  discarded := hs.discarded
  joined hrunning := by
    have howner := hreturned.resolve_left (by simp [hs.asserts])
    cases h : s.owner with
    | idle =>
        obtain ⟨joined, hround⟩ := hs.stopped h hrunning
        exact hround.joins
    | joining next last => exact absurd h (howner next last)
    | destroyed => exact (hs.destroyed h).joins

theorem Doomed.not_safe (hs : s.Doomed) (hreturned : s.Returned) : ¬ s.CyclesSafe := by
  intro hsafe
  obtain ⟨last, joined, howner, -⟩ := hs.resolve_left (by simp [hsafe.asserts])
  exact hreturned.resolve_left (by simp [hsafe.asserts]) 0 last howner

variable [DecidableEq τ]

/-! ### Workers and producers -/

theorem sameRound_popTask {woken : Multiset (Option τ)} (hpop : s.popTask w woken = some t) :
    SameRound s t := by
  rcases popTask_cases hpop with
    ⟨-, -, rfl⟩ | ⟨-, -, rfl⟩ | ⟨task, rest, -, -, condFull, -, rfl⟩ | ⟨-, rfl⟩
  · exact sameRound_setPoint ⟨rfl, rfl, rfl, rfl⟩
  · exact sameRound_setPoint (.refl s)
  · exact sameRound_setPoint ⟨rfl, rfl, rfl, rfl⟩
  · exact ⟨rfl, rfl, rfl, rfl⟩

theorem Move.sameRound {action : PoolAction τ} (hmove : s.Move action t)
    (howner : ¬ action.ByOwner) : SameRound s t := by
  cases hmove with
  | start | stop | destroyRunning | destroy | join => exact absurd trivial howner
  | runInline => exact ⟨rfl, rfl, rfl, rfl⟩
  | push _ hpush => exact sameRound_pushTask hpush
  | resumePush _ hpush =>
      rename_i condFull
      exact { sameRound_pushTask hpush with }
  | test => exact sameRound_setPoint (.refl s)
  | pop _ hpop => exact sameRound_popTask hpop
  | resumePop _ hpop =>
      rename_i condEmpty
      exact { sameRound_popTask hpop with }
  | call => exact sameRound_setPoint ⟨rfl, rfl, rfl, rfl⟩

/-- The assertions of `PushTask` and `PopTask` hold. -/
theorem CycleInv.keeps {action : PoolAction τ} (hs : s.CycleInv) (hproper : s.Proper action)
    (hmove : s.Move action t) (howner : ¬ action.ByOwner) :
    t.failed = false ∧ (M = 0 → t.queue = [] ∧ t.condFull.waiters = 0) := by
  have hpush : ∀ {u : ThreadPool M τ} {task : Option τ} {woken : Multiset ℕ}, 0 < M →
      u.failed = false → u.pushTask task woken = some t →
      t.failed = false ∧ (M = 0 → t.queue = [] ∧ t.condFull.waiters = 0) := by
    intro u task woken hM hu hpush
    refine ⟨?_, fun h => by omega⟩
    rcases pushTask_cases hpush with ⟨-, -, rfl⟩ | ⟨-, condEmpty, -, rfl⟩ | ⟨hzero, -, -⟩
    · exact hu
    · exact hu
    · omega
  have hpop : ∀ {u : ThreadPool M τ} {w : ℕ} {woken : Multiset (Option τ)}, u.queue = s.queue →
      u.condFull = s.condFull → u.failed = false → u.popTask w woken = some t →
      t.failed = false ∧ (M = 0 → t.queue = [] ∧ t.condFull.waiters = 0) := by
    intro u w woken hqueue hfull hu hpop
    have hunused : M = 0 → u.queue = [] ∧ u.condFull.waiters = 0 := by
      rw [hqueue, hfull]
      exact hs.unused
    rcases popTask_cases hpop with
      ⟨-, -, rfl⟩ | ⟨-, -, rfl⟩ | ⟨task, rest, -, hlt, condFull, -, rfl⟩ | ⟨hlarge, -⟩
    · exact ⟨hu, hunused⟩
    · exact ⟨hu, hunused⟩
    · exact ⟨hu, fun h => by omega⟩
    · have := hs.size
      rw [hqueue] at hlarge
      omega
  cases hmove with
  | start | stop | destroyRunning | destroy | join => exact absurd trivial howner
  | runInline => exact ⟨hs.asserts, hs.unused⟩
  | push _ h => exact hpush hproper hs.asserts h
  | resumePush hresume h =>
      rename_i condFull
      -- nobody sleeps on a queue without bound
      have hM : 0 < M := by
        apply Nat.pos_of_ne_zero
        intro hM
        have hwaiters := Condition.waiters_resume hresume
        rw [(hs.unused hM).2] at hwaiters
        exact Multiset.zero_ne_cons hwaiters
      exact hpush (u := s.setFull condFull) hM hs.asserts h
  | test => exact ⟨hs.asserts, hs.unused⟩
  | pop _ h => exact hpop rfl rfl hs.asserts h
  | resumePop hresume h =>
      rename_i condEmpty
      exact hpop (u := s.setEmpty condEmpty) rfl rfl hs.asserts h
  | call => exact ⟨hs.asserts, hs.unused⟩

theorem CycleInv.step {action : PoolAction τ} (hs : s.CycleInv) (hproper : s.Proper action)
    (hends : s.EndsRound action) (hstep : s.step action = some t) : t.CycleInv := by
  have hqueue := hs.queue.step hstep
  have hworkers := hs.workers.step (fun _ => hs.size) hstep
  obtain ⟨-, -, hmove⟩ := step_cases hstep
  by_cases hown : action.ByOwner
  · cases hmove with
    | start howner =>
        rename_i numThreads
        have hrunning : s.running = false := hproper
        have hsame : (s.start numThreads).failed = s.failed ∧
            (s.start numThreads).queue = s.queue ∧ (s.start numThreads).condFull = s.condFull := by
          rw [ThreadPool.start, if_neg (by simp [hrunning])]
          exact ⟨rfl, rfl, rfl⟩
        obtain ⟨hfailed, hqueue', hfull⟩ := hsame
        exact { hs.toRoundInv.start howner hrunning with
          queue := hqueue
          workers := hworkers
          asserts := hfailed.trans hs.asserts
          unused := by rw [hqueue', hfull]; exact hs.unused }
    | stop howner =>
        have hround : ∃ left, s.Round 0 left := by
          rcases hends with hrunning | hnone
          · exact hs.running hrunning
          · exact ⟨0, by simp [Round, threads, hnone]⟩
        obtain ⟨left, hround⟩ := hround
        exact { hs.toRoundInv.stop hround with
          queue := hqueue, workers := hworkers, asserts := hs.asserts, unused := hs.unused }
    | destroyRunning howner hrunning =>
        obtain ⟨left, hround⟩ := hs.running hrunning
        exact { hs.toRoundInv.stop hround with
          queue := hqueue, workers := hworkers, asserts := hs.asserts, unused := hs.unused }
    | destroy howner hrunning =>
        obtain ⟨joined, hround⟩ := hs.stopped howner hrunning
        exact { hs.toRoundInv.destroyed_of_round hround hrunning with
          queue := hqueue, workers := hworkers, asserts := hs.asserts, unused := hs.unused }
    | join howner hjoin =>
        have hrunning := (hs.workers.joining _ _ howner).1
        obtain ⟨hround, hfailed, hqueue', hfull⟩ := hs.toRoundInv.join hrunning howner hjoin
        exact { hround with
          queue := hqueue
          workers := hworkers
          asserts := hfailed.trans hs.asserts
          unused := by rw [hqueue', hfull]; exact hs.unused }
    | _ => exact absurd hown id
  · obtain ⟨hasserts, hunused⟩ := hs.keeps hproper hmove hown
    exact { hs.toRoundInv.same (hmove.sameRound hown) with
      queue := hqueue, workers := hworkers, asserts := hasserts, unused := hunused }

/-! ## A round that is ended twice -/

theorem CycleInv.doomed {action : PoolAction τ} (hs : s.CycleInv) (hends : ¬ s.EndsRound action)
    (hstep : s.step action = some t) : t.Doomed := by
  obtain ⟨-, -, hmove⟩ := step_cases hstep
  cases hmove with
  | stop howner =>
      obtain ⟨hrunning, hworkers⟩ := not_or.mp hends
      obtain ⟨joined, hround⟩ := hs.stopped howner (by simpa using hrunning)
      cases joined with
      | zero => exact absurd (List.map_eq_nil_iff.mp hround) hworkers
      | succ joined => exact Or.inr ⟨false, joined, rfl, hround⟩
  | _ => exact absurd trivial hends

/-- The join that comes next is of a thread that has been joined. -/
theorem Doomed.step {action : PoolAction τ} (hs : s.Doomed) (hstep : s.step action = some t) :
    t.Doomed := by
  obtain ⟨halive, -, hmove⟩ := step_cases hstep
  obtain ⟨last, joined, howner, hround⟩ := hs.resolve_left (by simp [halive])
  by_cases hown : action.ByOwner
  · cases hmove with
    | join howner' hjoin =>
        rw [howner] at howner'
        cases howner'
        -- the loop begins with a thread that has been joined
        left
        have hfirst : s.threads[0]? = some (⟨true, true⟩, 1) := by
          rw [hround]
          simp [List.replicate_succ]
        rw [threads, List.getElem?_map] at hfirst
        obtain ⟨worker, hworker, hthread⟩ := Option.map_eq_some_iff.mp hfirst
        obtain ⟨hthread, -⟩ := Prod.ext_iff.mp hthread
        have hfails : worker.thread.join = none := by
          rw [show worker.thread = ⟨true, true⟩ from hthread]
          rfl
        rw [ThreadPool.join, hworker] at hjoin
        simp only [hfails] at hjoin
        cases hjoin
        rfl
    | start h | stop h | destroyRunning h | destroy h =>
        rw [howner] at h
        cases h
    | _ => exact absurd hown id
  · have hsame := hmove.sameRound hown
    exact Or.inr ⟨last, joined, hsame.owner.trans howner, hsame.round.mpr hround⟩

/-- **Rounds of the pool are safe** exactly if no `Stop` repeats the `Stop` of a round with
workers. -/
theorem cycles_safe_iff (actions : List (PoolAction τ))
    (hrun : (machine M τ).exec (machine M τ).init actions = some u)
    (hproper : (machine M τ).EachStep Proper (machine M τ).init actions) (hreturned : u.Returned) :
    u.CyclesSafe ↔ (machine M τ).EachStep EndsRound (machine M τ).init actions := by
  have hcases := Machine.eachStep_or_doomed (m := machine M τ) (I := CycleInv) (D := Doomed)
    (G := Proper) (H := EndsRound)
    (fun s action t hs hproper hends hstep => hs.step hproper hends hstep)
    (fun s action t hs _ hends hstep => hs.doomed hends hstep)
    (fun s action t hs hstep => hs.step hstep) cycleInv_new hproper hrun
  rcases hcases with ⟨hends, hu⟩ | ⟨hends, hu⟩
  · exact iff_of_true (hu.safe hreturned) hends
  · exact iff_of_false (hu.not_safe hreturned) hends

instance decidableProper (s : ThreadPool M τ) : ∀ action, Decidable (s.Proper action)
  | .start _ => inferInstanceAs (Decidable (s.running = false))
  | .push _ _ => inferInstanceAs (Decidable (0 < M))
  | .stop | .destroy | .join | .resumePush _ _ _ | .test _ | .pop _ _ | .resumePop _ _ _
  | .call _ => isTrue trivial

instance decidableEndsRound (s : ThreadPool M τ) : ∀ action, Decidable (s.EndsRound action)
  | .stop => inferInstanceAs (Decidable (s.running = true ∨ s.workers = []))
  | .start _ | .destroy | .join | .push _ _ | .resumePush _ _ _ | .test _ | .pop _ _
  | .resumePop _ _ _ | .call _ => isTrue trivial

/-- `Stop`, a round of two workers, and a round that the destructor ends. -/
def roundsRun : List (PoolAction ℕ) :=
  [.stop, .join, .start 2, .test 0, .stop, .pop 0 0, .call 0, .test 0, .test 1, .join, .join, .join,
    .start 1, .destroy, .test 0, .join, .join]

theorem cycles_safe_iff_rounds : ∃ s : ThreadPool 1 ℕ,
    (machine 1 ℕ).exec (machine 1 ℕ).init roundsRun = some s ∧ s.owner = .destroyed ∧
      s.discarded.length = 3 ∧ s.CyclesSafe := by
  refine ⟨_, rfl, rfl, rfl, ?_⟩
  have hreturned : ∀ next last, PoolOwner.destroyed ≠ .joining next last := by simp
  exact (cycles_safe_iff roundsRun rfl (by decide) (Or.inr hreturned)).mpr (by decide)

/-- `Stop` twice in a row. -/
def stopTwiceRun : List (PoolAction ℕ) :=
  [.start 1, .stop, .test 0, .join, .join, .stop, .join]

theorem second_stop_fails : ∃ s : ThreadPool 1 ℕ,
    (machine 1 ℕ).exec (machine 1 ℕ).init stopTwiceRun = some s ∧
      (machine 1 ℕ).EachStep Proper (machine 1 ℕ).init stopTwiceRun ∧ s.failed = true ∧
      ¬ s.CyclesSafe :=
  ⟨_, rfl, by decide, rfl, fun h => absurd h.asserts (by decide)⟩

end ThreadPool

end YxAlpha
