import YxAlpha.Thread.PoolInvariant

/-!
# The assertions about the queue

`PushTask` asserts that the queue holds at most `max_queue_size_` tasks before it adds one, and
`PopTask` that it holds fewer behind the one it has taken.  The guards of both functions read
`max_queue_size_ = 0` as "no bound", the assertions do not: without a bound they fail as soon
as the queue is not empty, and with one they never do (`queue_asserts_iff`).
-/

namespace YxAlpha

namespace ThreadPool

variable {M : ℕ} {τ : Type*} {s t : ThreadPool M τ} {w : ℕ}

/-- No assertion of `PushTask` or `PopTask` fails. -/
def AssertsHold [DecidableEq τ] (s : ThreadPool M τ) (action : PoolAction τ) : Prop :=
  match action with
  | .push .. | .resumePush .. | .pop .. | .resumePop .. =>
      ∀ t, s.step action = some t → t.failed = false
  | _ => True

/-- The queue has a bound, or the call finds it empty or does not look at it. -/
def BoundedOrEmpty (s : ThreadPool M τ) (action : PoolAction τ) : Prop :=
  match action with
  | .push .. => 0 < M ∨ s.queue = [] ∨ s.workers = []
  | .resumePush .. | .pop .. | .resumePop .. => 0 < M ∨ s.queue = []
  | _ => True

/-- With a bound, every call is one that the assertions allow. -/
theorem boundedOrEmpty_of_pos (hM : 0 < M) (action : PoolAction τ) : s.BoundedOrEmpty action := by
  cases action <;> first | exact Or.inl hM | exact trivial

/-! ## One call -/

theorem failed_pushTask_iff {task : Option τ} {woken : Multiset ℕ} (halive : s.failed = false)
    (hpush : s.pushTask task woken = some t) : t.failed = false ↔ 0 < M ∨ s.queue = [] := by
  unfold pushTask at hpush
  split at hpush
  · rename_i hfull
    cases hpush
    exact iff_of_true halive (Or.inl hfull.1)
  · rename_i hspace
    split at hpush
    · rename_i hsize
      have hbounded : 0 < M ∨ s.queue = [] := by
        rw [← List.length_eq_zero_iff]
        omega
      split at hpush
      · cases hpush
        exact iff_of_true halive hbounded
      · cases hpush
    · rename_i hsize
      have hbounded : ¬ (0 < M ∨ s.queue = []) := by
        rw [← List.length_eq_zero_iff]
        omega
      cases hpush
      exact iff_of_false (by simp [fail]) hbounded

variable [DecidableEq τ]

theorem failed_popTask_iff {woken : Multiset (Option τ)} (hs : s.QueueInv)
    (halive : s.failed = false) (hpop : s.popTask w woken = some t) :
    t.failed = false ↔ 0 < M ∨ s.queue = [] := by
  rcases popTask_cases hpop with
    ⟨hqueue, -, rfl⟩ | ⟨hqueue, -, rfl⟩ | ⟨task, rest, -, hlt, condFull, -, rfl⟩ | ⟨hlarge, rfl⟩
  · exact iff_of_true halive (Or.inr hqueue)
  · exact iff_of_true halive (Or.inr hqueue)
  · exact iff_of_true halive (Or.inl (Nat.zero_lt_of_lt hlt))
  · refine iff_of_false (by simp [fail]) ?_
    rintro (hM | hqueue)
    · exact absurd (hs.size hM) (Nat.not_le_of_lt hlarge)
    · simp [hqueue] at hlarge

theorem assertsHold_iff {action : PoolAction τ} (hs : s.QueueInv) (hstep : s.step action = some t) :
    s.AssertsHold action ↔ s.BoundedOrEmpty action := by
  obtain ⟨halive, -, hmove⟩ := step_cases hstep
  have hone : (∀ u, s.step action = some u → u.failed = false) ↔ t.failed = false := by
    simp [hstep]
  cases hmove with
  | runInline hworkers => exact hone.trans (iff_of_true halive (Or.inr (Or.inr hworkers)))
  | push hworkers hpush =>
      refine hone.trans ((failed_pushTask_iff halive hpush).trans ?_)
      simp [BoundedOrEmpty, hworkers]
  | resumePush hresume hpush =>
      rename_i condFull
      exact hone.trans (failed_pushTask_iff (s := s.setFull condFull) halive hpush)
  | pop hpoint hpop => exact hone.trans (failed_popTask_iff hs halive hpop)
  | resumePop hresume hpop =>
      rename_i condEmpty
      exact hone.trans (failed_popTask_iff (s := s.setEmpty condEmpty) { hs with } halive hpop)
  | _ => exact Iff.rfl

/-! ## Runs -/

/-- Two tasks for a pool without a bound, before a worker takes one. -/
def twoTasks : List (PoolAction τ) := [.start 1, .push none 0, .push none 0]

theorem not_assertsHold_twoTasks :
    ¬ (machine 0 τ).EachStep AssertsHold (machine 0 τ).init twoTasks := by
  intro h
  have hsecond := ((h _ rfl).2 _ rfl).2 _ rfl
  exact Bool.noConfusion (hsecond.1 _ rfl)

/-- **When the assertions about the queue are valid**: in every run of callers, workers and
rounds, exactly as long as the queue has a bound or no call finds a task in it; for all runs of
a pool, exactly if its queue has a bound. -/
theorem queue_asserts_iff (M : ℕ) (actions : List (PoolAction τ)) :
    ((machine M τ).EachStep AssertsHold (machine M τ).init actions ↔
        (machine M τ).EachStep BoundedOrEmpty (machine M τ).init actions) ∧
      ((∀ schedule : List (PoolAction τ),
        (machine M τ).EachStep AssertsHold (machine M τ).init schedule) ↔ 0 < M) := by
  have hiff (schedule : List (PoolAction τ)) :
      (machine M τ).EachStep AssertsHold (machine M τ).init schedule ↔
        (machine M τ).EachStep BoundedOrEmpty (machine M τ).init schedule :=
    Machine.eachStep_iff_eachStep (m := machine M τ) (I := QueueInv)
      (fun _ _ _ hs hstep => hs.step hstep) (fun _ _ _ hs hstep => assertsHold_iff hs hstep)
      queueInv_new schedule
  refine ⟨hiff actions, ?_, ?_⟩
  · intro hall
    by_contra hM
    obtain rfl : M = 0 := by omega
    exact not_assertsHold_twoTasks (hall twoTasks)
  · intro hM schedule
    refine (hiff schedule).mpr ?_
    exact Machine.eachStep_of_invariant (m := machine M τ) (I := fun _ => True)
      (fun _ _ _ _ _ => trivial) (fun _ _ _ _ _ => boundedOrEmpty_of_pos hM _) trivial schedule

/-- Without a bound, the second `PushTask` fails its assertion, and so does the `PopTask` that
takes the first task. -/
theorem unbounded_aborts : ∃ s t u v : ThreadPool 0 ℕ,
    (machine 0 ℕ).exec (machine 0 ℕ).init [.start 1, .push (some 7) 0] = some s ∧
      s.failed = false ∧ s.queue = [some 7] ∧
      s.step (.push (some 8) 0) = some t ∧ t.failed = true ∧
      s.step (.test 0) = some u ∧ u.step (.pop 0 0) = some v ∧ v.failed = true :=
  ⟨_, _, _, _, rfl, rfl, rfl, rfl, rfl, rfl, rfl, rfl⟩

end ThreadPool

end YxAlpha
