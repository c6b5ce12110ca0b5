import YxAlpha.Logger.BufferExchange
import YxAlpha.Thread.CountDownLatch

/-!
# The handshake of `Start`

`Start` waits on `latch_` until the back-end thread has counted it down.  `AsyncLogging` has
that wait as one step, which is enabled once the count is 0; `LatchedLogging` has the latch of
`thread/countdownlatch.h` in its place, in which the owner may sleep, wake up for no reason and
sleep again.  Its runs are runs of `AsyncLogging`, so what is proved of that holds here, and
`Start` is not left asleep (`handshake`).
-/

namespace YxAlpha

structure LatchedLogging (N : ℕ) where
  logging : AsyncLogging N
  latch : CountDownLatch Unit

inductive LatchedAction (N : ℕ)
  /-- A step of the logger that does not wait on the latch. -/
  | logging (action : AsyncLoggingAction N)
  /-- The owner calls `latch_.Wait()`. -/
  | wait
  | resume (wakeup : Wakeup)

namespace LatchedLogging

variable {N : ℕ}

def new : LatchedLogging N := ⟨.new, .new 1⟩

/-- When `latch_.Wait()` returns, so does `Start`. -/
def setLatch (s : LatchedLogging N) (latch : CountDownLatch Unit) : LatchedLogging N where
  logging :=
    if latch.returned = s.latch.returned then s.logging
    else { s.logging with owner := .started }
  latch := latch

def step (s : LatchedLogging N) : LatchedAction N → Option (LatchedLogging N)
  | .logging .waitLatch => none
  | .logging .countDown =>
      (s.logging.step .countDown).map fun logging => ⟨logging, s.latch.countDown⟩
  | .logging action => (s.logging.step action).map fun logging => { s with logging }
  | .wait =>
      if s.logging.owner = .starting ∧ s.latch.condition.waiters = 0 then
        (s.latch.step (.wait ())).map s.setLatch
      else none
  | .resume wakeup => (s.latch.step (.resume wakeup ())).map s.setLatch

def machine (N : ℕ) : Machine (LatchedLogging N) (LatchedAction N) where
  init := new
  step := step

/-- A step as `AsyncLogging` has it. -/
def meaning (s : LatchedLogging N) : LatchedAction N → LatchedLogging N →
    List (AsyncLoggingAction N)
  | .logging action, _ => [action]
  | .wait, t | .resume _, t => if t.latch.returned = s.latch.returned then [] else [.waitLatch]

end LatchedLogging

namespace AsyncLogging

variable {N : ℕ} {s t : AsyncLogging N}

/-- The back-end thread has not counted the latch down yet. -/
def Uncounted (s : AsyncLogging N) : Prop := s.point = .notStarted ∨ s.point = .started

/-- `latch_.Wait()` has returned. -/
def Waited (s : AsyncLogging N) : Prop := s.owner ≠ .idle ∧ s.owner ≠ .starting

/-- What the steps that have nothing to do with the latch do to it. -/
structure LatchFrame (s t : AsyncLogging N) : Prop where
  latch : t.latch = s.latch
  uncounted : t.Uncounted ↔ s.Uncounted
  waited : t.Waited → s.Waited
  starting : s.owner = .starting → t.owner = .starting

theorem LatchFrame.of_same (hlatch : t.latch = s.latch) (howner : t.owner = s.owner)
    (huncounted : t.Uncounted ↔ s.Uncounted) : LatchFrame s t where
  latch := hlatch
  uncounted := huncounted
  waited h := by rwa [Waited, howner] at h
  starting h := howner.trans h

theorem latchFrame_step {action : AsyncLoggingAction N} (hs : s.Inv)
    (hwait : action ≠ .waitLatch) (hcount : action ≠ .countDown)
    (hstep : s.step action = some t) : LatchFrame s t := by
  have hfail : LatchFrame s s.fail := .of_same rfl rfl Iff.rfl
  cases step_cases hstep with
  | append line =>
      obtain ⟨-, hpoint, hlatch, howner⟩ := frame_logLine (s := s) line
      exact .of_same hlatch howner (by rw [Uncounted, hpoint, Uncounted])
  | start howner hthread =>
      have hpoint := hs.idle.mp howner
      exact ⟨rfl, iff_of_true (Or.inr rfl) (Or.inl hpoint), fun h => absurd rfl h.2, fun _ => rfl⟩
  | startFails | joinFails => exact hfail
  | waitLatch => exact absurd rfl hwait
  | stop howner | join howner =>
      exact ⟨rfl, Iff.rfl, fun _ => by simp [Waited, howner], fun h => by simp [howner] at h⟩
  | countDown => exact absurd rfl hcount
  | testRunning hpoint =>
      unfold AsyncLogging.testRunning
      split
      · split
        · exact .of_same rfl rfl (by simp [Uncounted, hpoint])
        · exact hfail
      · exact .of_same rfl rfl (by simp [Uncounted, hpoint])
  | wait hpoint => exact .of_same rfl rfl (by simp [Uncounted, hpoint])
  | enter hpoint | wake hpoint =>
      unfold AsyncLogging.swap
      split
      · exact hfail
      · exact .of_same rfl rfl (by simp [Uncounted, hpoint])
  | truncate hpoint =>
      unfold AsyncLogging.truncate
      split
      · exact hfail
      · exact .of_same rfl rfl (by simp [Uncounted, hpoint])
  | write hpoint => exact .of_same rfl rfl (by simp [Uncounted, hpoint])
  | refill hpoint =>
      unfold AsyncLogging.refill
      split
      · exact hfail
      · split
        · exact hfail
        · exact .of_same rfl rfl (by simp [Uncounted, hpoint])

end AsyncLogging

namespace LatchedLogging

variable {N : ℕ} {s t : LatchedLogging N}

structure Inv (s : LatchedLogging N) : Prop where
  logging : s.logging.Inv
  count : s.latch.count = s.logging.latch
  uncounted : s.logging.Uncounted → s.logging.latch = 1
  counted : ¬ s.logging.Uncounted → s.logging.latch = 0
  /-- Only `Start` waits, and only once. -/
  waiters : s.latch.condition.waiters.card ≤ 1
  starting : s.latch.condition.waiters ≠ 0 → s.logging.owner = .starting
  waited : s.logging.Waited → s.logging.latch = 0
  noneLeft : s.latch.NoneLeft

theorem inv_new : (new : LatchedLogging N).Inv where
  logging := AsyncLogging.inv_new
  count := rfl
  uncounted _ := rfl
  counted h := absurd (Or.inl rfl) h
  waiters := Nat.zero_le _
  starting h := absurd rfl h
  waited h := absurd rfl h.1
  noneLeft := CountDownLatch.noneLeft_new 1

theorem cons_ne_self (returned : Multiset Unit) : () ::ₘ returned ≠ returned := by
  intro h
  have hcard := congrArg Multiset.card h
  rw [Multiset.card_cons] at hcard
  omega

/-- The owner tests the count: it sleeps, or `Start` returns. -/
theorem Inv.test {condition : Condition Unit} (hs : s.Inv) (howner : s.logging.owner = .starting)
    (hnone : condition.waiters = 0) {latch : CountDownLatch Unit}
    (hlatch : latch = { s.latch with condition }.test ()) :
    (s.setLatch latch).Inv ∧
      (AsyncLogging.machine N).exec s.logging
        (if latch.returned = s.latch.returned then [] else [.waitLatch]) =
          some (s.setLatch latch).logging := by
  by_cases hcount : 0 < s.latch.count
  · rw [CountDownLatch.test, if_pos hcount] at hlatch
    subst hlatch
    rw [setLatch, if_pos rfl, if_pos rfl]
    refine ⟨⟨hs.logging, hs.count, hs.uncounted, hs.counted, ?_, fun _ => howner, hs.waited, ?_⟩,
      rfl⟩
    · rw [Condition.waiters_wait, hnone]
      exact le_rfl
    · exact fun hle => absurd hcount (not_lt.mpr hle)
  · rw [CountDownLatch.test, if_neg hcount] at hlatch
    subst hlatch
    have hreturned : () ::ₘ s.latch.returned ≠ s.latch.returned := cons_ne_self _
    have hzero : s.logging.latch = 0 := by
      have := hs.count
      omega
    have hstep : s.logging.step .waitLatch = some { s.logging with owner := .started } := by
      simp [AsyncLogging.step, hs.logging.notFailed, howner, hzero]
    rw [setLatch, if_neg hreturned, if_neg hreturned]
    refine ⟨⟨hs.logging.step hstep, hs.count, hs.uncounted, hs.counted, ?_, ?_, fun _ => hzero, ?_⟩,
      ?_⟩
    · rw [hnone]
      exact Nat.zero_le _
    · exact fun h => absurd hnone h
    · exact fun _ => Multiset.le_zero.mp (hnone ▸ Multiset.le_add_right _ _)
    · rw [Machine.exec, show (AsyncLogging.machine N).step s.logging .waitLatch = some _ from hstep]
      rfl

theorem Inv.step {action : LatchedAction N} (hs : s.Inv) (hstep : s.step action = some t) :
    t.Inv ∧ (AsyncLogging.machine N).exec s.logging (s.meaning action t) = some t.logging := by
  cases action with
  | wait =>
      simp only [LatchedLogging.step, Option.ite_none_right_eq_some] at hstep
      obtain ⟨⟨howner, hnone⟩, hstep⟩ := hstep
      cases hstep
      exact hs.test howner hnone rfl
  | resume wakeup =>
      obtain ⟨latch, hlatch, rfl⟩ := Option.map_eq_some_iff.mp hstep
      obtain ⟨condition, hresume, rfl⟩ := Option.map_eq_some_iff.mp hlatch
      have hwaiters := Condition.waiters_resume hresume
      have hnone : condition.waiters = 0 := by
        have hcard := hs.waiters
        rw [hwaiters, Multiset.card_cons] at hcard
        exact Multiset.card_eq_zero.mp (by omega)
      exact hs.test (hs.starting (by simp [hwaiters])) hnone rfl
  | logging action =>
      have hexec : ∀ {logging}, s.logging.step action = some logging →
          (AsyncLogging.machine N).exec s.logging [action] = some logging := by
        intro logging h
        rw [Machine.exec, show (AsyncLogging.machine N).step s.logging action = some logging from h]
        rfl
      by_cases hcount : action = .countDown
      · subst hcount
        obtain ⟨logging, hlogging, rfl⟩ := Option.map_eq_some_iff.mp hstep
        refine ⟨?_, hexec hlogging⟩
        have hinv := hs.logging.step hlogging
        cases AsyncLogging.step_cases hlogging with
        | countDown hpoint =>
            have hone := hs.uncounted (Or.inr hpoint)
            have hwaiters : s.latch.countDown.condition.waiters = s.latch.condition.waiters :=
              CountDownLatch.waiters_countDown
            have hlatch : s.latch.step .countDown = some s.latch.countDown := rfl
            refine ⟨hinv, ?_, ?_, ?_, ?_, ?_, ?_, ?_⟩
            · simp [CountDownLatch.countDown, AsyncLogging.countDown, hs.count, hone]
            · simp [AsyncLogging.Uncounted, AsyncLogging.countDown]
            · simp [AsyncLogging.countDown, hone]
            · rw [hwaiters]
              exact hs.waiters
            · rw [hwaiters]
              exact hs.starting
            · intro _
              simp [AsyncLogging.countDown, hone]
            · exact hs.noneLeft.step hlatch
      · by_cases hwait : action = .waitLatch
        · subst hwait
          cases hstep
        · have hmap : (s.logging.step action).map (fun logging => { s with logging }) = some t := by
            cases action <;> first | exact hstep | exact absurd rfl hcount | exact absurd rfl hwait
          obtain ⟨logging, hlogging, rfl⟩ := Option.map_eq_some_iff.mp hmap
          have hframe := AsyncLogging.latchFrame_step hs.logging hwait hcount hlogging
          refine ⟨⟨hs.logging.step hlogging, ?_, ?_, ?_, hs.waiters, ?_, ?_, hs.noneLeft⟩,
            hexec hlogging⟩
          · rw [hframe.latch]
            exact hs.count
          · exact fun h => hframe.latch.trans (hs.uncounted (hframe.uncounted.mp h))
          · exact fun h => hframe.latch.trans (hs.counted (mt hframe.uncounted.mpr h))
          · exact fun h => hframe.starting (hs.starting h)
          · exact fun h => hframe.latch.trans (hs.waited (hframe.waited h))

/-- The handshake after a run. -/
structure Handshake (actions : List (LatchedAction N)) (s : LatchedLogging N) : Prop where
  /-- The logger has made a run of `AsyncLogging`. -/
  run : (AsyncLogging.machine N).exec (AsyncLogging.machine N).init
    ((machine N).observed meaning (machine N).init actions) = some s.logging
  /-- When `Start` has returned, the thread has counted the latch down. -/
  counted : s.logging.Waited → ¬ s.logging.Uncounted
  /-- When the thread has counted it down, `Start` returns as soon as it takes the mutex. -/
  returns : s.logging.owner = .starting → ¬ s.logging.Uncounted →
    ∃ action t, (action = .wait ∨ action = .resume .signalled) ∧ s.step action = some t ∧
      t.logging.owner = .started

theorem Inv.returns (hs : s.Inv) (howner : s.logging.owner = .starting)
    (hcounted : ¬ s.logging.Uncounted) :
    ∃ action t, (action = .wait ∨ action = .resume .signalled) ∧ s.step action = some t ∧
      t.logging.owner = .started := by
  have hcount : ¬ 0 < s.latch.count := by
    rw [hs.count, hs.counted hcounted]
    decide
  have htest : ∀ condition,
      (s.setLatch ({ s.latch with condition }.test ())).logging.owner = .started := by
    intro condition
    rw [CountDownLatch.test, if_neg hcount, setLatch, if_neg (cons_ne_self _)]
  by_cases hnone : s.latch.condition.waiters = 0
  · refine ⟨.wait, _, Or.inl rfl, ?_, htest s.latch.condition⟩
    simp only [LatchedLogging.step, if_pos (And.intro howner hnone)]
    rfl
  · obtain ⟨i, hi⟩ := Multiset.exists_mem_of_ne_zero hnone
    have hsignalled : i ∈ s.latch.condition.signalled := by
      have hmem : i ∈ s.latch.condition.asleep + s.latch.condition.signalled := hi
      rwa [hs.noneLeft (not_lt.mp hcount), zero_add] at hmem
    obtain ⟨condition, hresume⟩ := Condition.exists_resume hsignalled
    refine ⟨.resume .signalled, _, Or.inr rfl, ?_, htest condition⟩
    simp only [LatchedLogging.step, CountDownLatch.step, CountDownLatch.resume, hresume,
      Option.map_some]

/-- **The handshake of `Start`**, in any run: the logger does what it does with an atomic latch,
`Start` returns only after the thread has begun, and is not left asleep. -/
theorem handshake {actions : List (LatchedAction N)}
    (hrun : (machine N).exec (machine N).init actions = some s) : Handshake actions s := by
  have hstep : ∀ (s : LatchedLogging N) logging action t, s.Inv ∧ s.logging = logging →
      (machine N).step s action = some t →
        ∃ next, (AsyncLogging.machine N).exec logging (s.meaning action t) = some next ∧
          t.Inv ∧ t.logging = next := by
    rintro s _ action t ⟨hs, rfl⟩ hstep
    obtain ⟨ht, hexec⟩ := hs.step hstep
    exact ⟨t.logging, hexec, ht, rfl⟩
  obtain ⟨logging, hlogging, hs, rfl⟩ := Machine.exec_simulated hstep ⟨inv_new, rfl⟩ hrun
  refine ⟨hlogging, ?_, hs.returns⟩
  intro hwaited huncounted
  have hone := hs.uncounted huncounted
  rw [hs.waited hwaited] at hone
  cases hone

/-- The owner sleeps, wakes up for no reason, and is signalled. -/
def sleepyStart : List (LatchedAction 8) :=
  [.logging .start, .wait, .resume .spurious, .logging .countDown, .resume .signalled]

theorem handshake_sleepyStart : ∃ s : LatchedLogging 8,
    (machine 8).exec (machine 8).init sleepyStart = some s ∧ s.logging.owner = .started ∧
      Handshake sleepyStart s :=
  ⟨_, rfl, rfl, handshake rfl⟩

end LatchedLogging

end YxAlpha
