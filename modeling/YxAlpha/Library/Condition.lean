import Mathlib.Algebra.Order.Group.Multiset
import Mathlib.Data.Multiset.Filter

/-!
# Condition variables

A condition variable as its two sets of waiters: those asleep, and those that have been
signalled but have yet to resume with the mutex.  A signal wakes at least one sleeper if
there is one; which ones it wakes is for the environment to choose, and so is the order in
which waiters resume.  A sleeper may also resume without a signal.
-/

structure Condition (ι : Type*) where
  asleep : Multiset ι
  signalled : Multiset ι

/-- Why a waiter resumes. -/
inductive Wakeup
  | signalled
  | spurious
  deriving DecidableEq, Repr

namespace Condition

variable {ι : Type*} {c d : Condition ι} {i : ι} {woken : Multiset ι}

def new : Condition ι := ⟨0, 0⟩

def waiters (c : Condition ι) : Multiset ι := c.asleep + c.signalled

def wait (c : Condition ι) (i : ι) : Condition ι := { c with asleep := i ::ₘ c.asleep }

def notifyAll (c : Condition ι) : Condition ι := ⟨0, c.signalled + c.asleep⟩

theorem waiters_wait : (c.wait i).waiters = i ::ₘ c.waiters :=
  Multiset.cons_add i c.asleep c.signalled

theorem waiters_notifyAll : c.notifyAll.waiters = c.waiters := by
  show 0 + (c.signalled + c.asleep) = c.asleep + c.signalled
  rw [zero_add, add_comm]

variable [DecidableEq ι]

/-- Signal the waiters in `woken`. -/
def notify (c : Condition ι) (woken : Multiset ι) : Option (Condition ι) :=
  if woken ≤ c.asleep ∧ (woken = 0 → c.asleep = 0) then
    some ⟨c.asleep - woken, c.signalled + woken⟩
  else none

def resume (c : Condition ι) (wakeup : Wakeup) (i : ι) : Option (Condition ι) :=
  match wakeup with
  | .signalled =>
      if i ∈ c.signalled then some { c with signalled := c.signalled.erase i } else none
  | .spurious => if i ∈ c.asleep then some { c with asleep := c.asleep.erase i } else none

/-! ## Waiters -/

theorem notify_cases (h : c.notify woken = some d) :
    woken ≤ c.asleep ∧ (woken = 0 → c.asleep = 0) ∧
      d = ⟨c.asleep - woken, c.signalled + woken⟩ := by
  unfold notify at h
  split at h
  · rename_i hwoken
    exact ⟨hwoken.1, hwoken.2, (Option.some.inj h).symm⟩
  · cases h

theorem waiters_notify (h : c.notify woken = some d) : d.waiters = c.waiters := by
  obtain ⟨hle, -, rfl⟩ := notify_cases h
  show c.asleep - woken + (c.signalled + woken) = c.asleep + c.signalled
  rw [add_comm c.signalled, ← add_assoc, Multiset.sub_add_cancel hle]

theorem waiters_resume {wakeup : Wakeup} (h : c.resume wakeup i = some d) :
    c.waiters = i ::ₘ d.waiters := by
  cases wakeup with
  | signalled =>
      simp only [resume] at h
      split at h <;> cases h
      rename_i hi
      show c.asleep + c.signalled = i ::ₘ (c.asleep + c.signalled.erase i)
      rw [← Multiset.add_cons, Multiset.cons_erase hi]
  | spurious =>
      simp only [resume] at h
      split at h <;> cases h
      rename_i hi
      show c.asleep + c.signalled = i ::ₘ (c.asleep.erase i + c.signalled)
      rw [← Multiset.cons_add, Multiset.cons_erase hi]

/-! ## Sleepers and signals -/

theorem asleep_notify_le (h : c.notify woken = some d) : d.asleep ≤ c.asleep := by
  obtain ⟨-, -, rfl⟩ := notify_cases h
  exact Multiset.sub_le_self _ _

theorem asleep_resume_le {wakeup : Wakeup} (h : c.resume wakeup i = some d) :
    d.asleep ≤ c.asleep := by
  cases wakeup with
  | signalled =>
      simp only [resume] at h
      split at h <;> cases h
      exact le_rfl
  | spurious =>
      simp only [resume] at h
      split at h <;> cases h
      exact Multiset.erase_le _ _

omit [DecidableEq ι] in
theorem asleep_ne_zero_of_le (hle : d.asleep ≤ c.asleep) (hd : d.asleep ≠ 0) : c.asleep ≠ 0 := by
  intro hzero
  rw [hzero, Multiset.le_zero] at hle
  exact hd hle

/-- A signal is not lost on a sleeper. -/
theorem card_signalled_notify (h : c.notify woken = some d) (hasleep : c.asleep ≠ 0) :
    c.signalled.card + 1 ≤ d.signalled.card := by
  obtain ⟨-, hwoken, rfl⟩ := notify_cases h
  rw [Multiset.card_add]
  have hpos : 0 < woken.card := Multiset.card_pos.mpr fun h => hasleep (hwoken h)
  omega

theorem card_signalled_resume {wakeup : Wakeup} (h : c.resume wakeup i = some d) :
    c.signalled.card ≤ d.signalled.card + 1 := by
  cases wakeup with
  | signalled =>
      simp only [resume] at h
      split at h <;> cases h
      rename_i hi
      exact (Multiset.card_erase_add_one hi).ge
  | spurious =>
      simp only [resume] at h
      split at h <;> cases h
      exact Nat.le_succ _

/-- One of the sleepers is asleep no longer, if each sleeps once. -/
theorem exists_woken (h : c.notify woken = some d) (hasleep : c.asleep ≠ 0)
    (honce : c.waiters.Nodup) : ∃ i ∈ c.asleep, i ∉ d.asleep := by
  obtain ⟨hle, hwoken, rfl⟩ := notify_cases h
  obtain ⟨i, hi⟩ := Multiset.exists_mem_of_ne_zero fun h => hasleep (hwoken h)
  have hnodup : c.asleep.Nodup := Multiset.nodup_of_le (Multiset.le_add_right _ _) honce
  refine ⟨i, Multiset.mem_of_le hle hi, ?_⟩
  rw [Multiset.mem_sub_of_nodup hnodup]
  exact fun h => h.2 hi

/-! ## Steps that can be taken -/

theorem exists_notify (c : Condition ι) : ∃ woken d, c.notify woken = some d :=
  ⟨c.asleep, _, if_pos ⟨le_rfl, id⟩⟩

theorem exists_resume (hi : i ∈ c.signalled) : ∃ d, c.resume .signalled i = some d :=
  ⟨_, if_pos hi⟩

end Condition
