import YxAlpha.Library.Condition
import YxAlpha.Library.Machine

/-!
# The count-down latch

`thread/countdownlatch.h`: `Wait` sleeps on a condition variable as long as `count_` is
positive, and the `CountDown` that takes it to 0 signals all.  A step is what a thread does
while it holds `mutex_`, from taking the mutex to giving it back or to sleeping.

What the latch is for is `AtomicLatch`, which has no condition variable: a call of `Wait`
returns at some time when the count is not positive.  The latch refines it, and no waiter
is left behind (`refines_atomic`).
-/

namespace YxAlpha

structure CountDownLatch (ι : Type*) where
  count : ℤ
  condition : Condition ι
  /-- The calls of `Wait` that have returned. -/
  returned : Multiset ι

inductive LatchAction (ι : Type*)
  | wait (i : ι)
  | resume (wakeup : Wakeup) (i : ι)
  | countDown
  deriving DecidableEq, Repr

namespace CountDownLatch

variable {ι : Type*}

def new (count : ℤ) : CountDownLatch ι := ⟨count, .new, 0⟩

variable (s : CountDownLatch ι)

/-- The test of the loop in `Wait`. -/
def test (i : ι) : CountDownLatch ι :=
  if 0 < s.count then { s with condition := s.condition.wait i }
  else { s with returned := i ::ₘ s.returned }

def countDown : CountDownLatch ι :=
  { s with
    count := s.count - 1
    condition := if s.count - 1 = 0 then s.condition.notifyAll else s.condition }

variable [DecidableEq ι]

/-- A sleeper resumes, and tests the count again. -/
def resume (wakeup : Wakeup) (i : ι) : Option (CountDownLatch ι) :=
  (s.condition.resume wakeup i).map fun condition => { s with condition }.test i

def step (s : CountDownLatch ι) : LatchAction ι → Option (CountDownLatch ι)
  | .wait i => some (s.test i)
  | .resume wakeup i => s.resume wakeup i
  | .countDown => some s.countDown

def machine (ι : Type*) [DecidableEq ι] (count : ℤ) :
    Machine (CountDownLatch ι) (LatchAction ι) where
  init := new count
  step := step

end CountDownLatch

/-! ## What it is for -/

structure AtomicLatch (ι : Type*) where
  count : ℤ
  waiting : Multiset ι
  returned : Multiset ι

inductive AtomicLatchAction (ι : Type*)
  | call (i : ι)
  /-- A call of `Wait` returns. -/
  | leave (i : ι)
  | countDown
  deriving DecidableEq, Repr

namespace AtomicLatch

variable {ι : Type*} [DecidableEq ι]

def new (count : ℤ) : AtomicLatch ι := ⟨count, 0, 0⟩

def step (s : AtomicLatch ι) : AtomicLatchAction ι → Option (AtomicLatch ι)
  | .call i => some { s with waiting := i ::ₘ s.waiting }
  | .leave i =>
      if i ∈ s.waiting ∧ s.count ≤ 0 then
        some { s with waiting := s.waiting.erase i, returned := i ::ₘ s.returned }
      else none
  | .countDown => some { s with count := s.count - 1 }

def machine (ι : Type*) [DecidableEq ι] (count : ℤ) :
    Machine (AtomicLatch ι) (AtomicLatchAction ι) where
  init := new count
  step := step

end AtomicLatch

namespace CountDownLatch

variable {ι : Type*} [DecidableEq ι] {s t : CountDownLatch ι} {i : ι}

/-- The latch as it is to be seen. -/
def toAtomic (s : CountDownLatch ι) : AtomicLatch ι := ⟨s.count, s.condition.waiters, s.returned⟩

/-- A step as it is to be seen: a waiter that sleeps again has done nothing. -/
def meaning (s : CountDownLatch ι) : LatchAction ι → CountDownLatch ι → List (AtomicLatchAction ι)
  | .wait i, _ => if 0 < s.count then [.call i] else [.call i, .leave i]
  | .resume _ i, _ => if 0 < s.count then [] else [.leave i]
  | .countDown, _ => [.countDown]

/-- Nobody sleeps beside a count that has run down. -/
def NoneLeft (s : CountDownLatch ι) : Prop := s.count ≤ 0 → s.condition.asleep = 0

omit [DecidableEq ι] in
theorem noneLeft_new (count : ℤ) : (new count : CountDownLatch ι).NoneLeft := fun _ => rfl

theorem NoneLeft.step {action : LatchAction ι} (hs : s.NoneLeft) (hstep : s.step action = some t) :
    t.NoneLeft := by
  have htest : ∀ (u : CountDownLatch ι) i, u.NoneLeft → (u.test i).NoneLeft := by
    intro u i hu
    unfold test
    split
    · intro hle
      exact absurd hle (not_le.mpr ‹_›)
    · exact hu
  cases action with
  | wait i =>
      cases hstep
      exact htest s i hs
  | resume wakeup i =>
      obtain ⟨condition, hresume, rfl⟩ := Option.map_eq_some_iff.mp hstep
      refine htest _ i fun hle => ?_
      exact le_antisymm ((Condition.asleep_resume_le hresume).trans (hs hle).le)
        (Multiset.zero_le _)
  | countDown =>
      cases hstep
      intro hle
      unfold countDown at hle ⊢
      dsimp only at hle ⊢
      split
      · rfl
      · exact hs (by omega)

omit [DecidableEq ι] in
theorem waiters_countDown : s.countDown.condition.waiters = s.condition.waiters := by
  unfold countDown
  dsimp only
  split
  · exact Condition.waiters_notifyAll
  · rfl

theorem exec_meaning {action : LatchAction ι} (hstep : s.step action = some t) {count : ℤ} :
    (AtomicLatch.machine ι count).exec s.toAtomic (s.meaning action t) = some t.toAtomic := by
  cases action with
  | wait i =>
      cases hstep
      by_cases hcount : 0 < s.count
      · rw [meaning, if_pos hcount, test, if_pos hcount, toAtomic, toAtomic, Condition.waiters_wait]
        rfl
      · simp [meaning, test, hcount, Machine.exec, AtomicLatch.machine, AtomicLatch.step, toAtomic,
          not_lt.mp hcount]
  | resume wakeup i =>
      obtain ⟨condition, hresume, rfl⟩ := Option.map_eq_some_iff.mp hstep
      have hwaiters := Condition.waiters_resume hresume
      by_cases hcount : 0 < s.count
      · simp only [meaning, if_pos hcount, test, toAtomic, Condition.waiters_wait, hwaiters]
        rfl
      · simp [meaning, test, hcount, Machine.exec, AtomicLatch.machine, AtomicLatch.step, toAtomic,
          not_lt.mp hcount, hwaiters]
  | countDown =>
      cases hstep
      show some _ = some (AtomicLatch.mk s.countDown.count s.countDown.condition.waiters _)
      rw [waiters_countDown]
      rfl

/-- What is known of a run of the latch that has begun with a count. -/
structure Refines (count : ℤ) (actions : List (LatchAction ι)) (s : CountDownLatch ι) : Prop where
  /-- It is a run of the atomic latch. -/
  atomic : (AtomicLatch.machine ι count).exec (.new count)
    ((machine ι count).observed meaning (.new count) actions) = some s.toAtomic
  /-- A waiter that may return has been signalled, and returns when it takes the mutex. -/
  returns : ∀ i a, (AtomicLatch.machine ι count).step s.toAtomic (.leave i) = some a →
    ∃ t, s.step (.resume .signalled i) = some t ∧ t.toAtomic = a

theorem NoneLeft.returns (hs : s.NoneLeft) {a : AtomicLatch ι}
    (ha : s.toAtomic.step (.leave i) = some a) :
    ∃ t, s.step (.resume .signalled i) = some t ∧ t.toAtomic = a := by
  simp only [AtomicLatch.step, Option.ite_none_right_eq_some] at ha
  obtain ⟨⟨hmem, hle⟩, ha⟩ := ha
  have hsignalled : i ∈ s.condition.signalled := by
    have hwaiters : i ∈ s.condition.asleep + s.condition.signalled := hmem
    rwa [hs hle, zero_add] at hwaiters
  obtain ⟨condition, hresume⟩ := Condition.exists_resume hsignalled
  have hstep : s.step (.resume .signalled i) = some ({ s with condition }.test i) :=
    Option.map_eq_some_iff.mpr ⟨condition, hresume, rfl⟩
  refine ⟨_, hstep, ?_⟩
  cases ha
  have hwaiters := Condition.waiters_resume hresume
  have hcount : ¬ 0 < s.count := not_lt.mpr hle
  simp [test, toAtomic, hcount, hwaiters]

/-- **The latch refines the atomic one**, for any number of waiters and of calls of `CountDown`,
in any order; and no waiter is left behind. -/
theorem refines_atomic {count : ℤ} {actions : List (LatchAction ι)}
    (hrun : (machine ι count).exec (machine ι count).init actions = some s) :
    Refines count actions s where
  atomic := by
    obtain ⟨a, ha, rfl⟩ := Machine.exec_simulated (m := machine ι count)
      (n := AtomicLatch.machine ι count) (R := fun s a => a = s.toAtomic)
      (fun s a action t hsa hstep => ⟨t.toAtomic, hsa ▸ exec_meaning hstep, rfl⟩)
      (t := AtomicLatch.new count) rfl hrun
    exact ha
  returns i a ha := by
    have hs : s.NoneLeft :=
      Machine.exec_invariant (m := machine ι count) (fun _ _ _ hs hstep => hs.step hstep)
        (noneLeft_new count) hrun
    exact hs.returns ha

/-- Two threads wait, one of them wakes up for no reason, and the count runs down. -/
def twoWaiters : List (LatchAction ℕ) :=
  [.wait 0, .wait 1, .resume .spurious 1, .countDown, .resume .signalled 1]

theorem refines_atomic_twoWaiters : ∃ s : CountDownLatch ℕ,
    (machine ℕ 1).exec (machine ℕ 1).init twoWaiters = some s ∧ s.returned = {1} ∧
      Refines 1 twoWaiters s :=
  ⟨_, rfl, rfl, refines_atomic rfl⟩

end CountDownLatch

end YxAlpha
