import Mathlib.Data.List.Infix
import YxAlpha.Logger.LineOrder

/-!
# Stopping the logger

`Stop` clears `running_` and joins the back end, which tests `running_` only at the top of
its loop.  So what is in the buffers when `running_` is cleared still gets to the file
exactly if the back end is then between that test and its exchange (`Exchanging`); at any
other point the test it comes to next is its last, and no exchange follows
(`drains_iff`).
-/

namespace YxAlpha

namespace AsyncLogging

variable {N : ℕ} {s t u : AsyncLogging N}

/-- The back end has passed the test of the loop, and its exchange is next. -/
def Exchanging (s : AsyncLogging N) : Prop := s.point = .entering ∨ s.point = .waiting

/-! ## After the test -/

/-- `Stop` is running or has returned. -/
structure Stopping (s : AsyncLogging N) : Prop where
  running : s.running = false
  owner : s.owner = .stopping ∨ s.owner = .stopped ∧ s.point = .finished

/-- A step of the program that is no exchange. -/
structure Unexchanged (s t : AsyncLogging N) : Prop where
  appended : s.appended <+: t.appended
  swaps : t.swaps = s.swaps
  exchanging : t.Exchanging ↔ s.Exchanging

theorem Stopping.logLine (hstopping : s.Stopping) (hs : s.Inv) (line : LogLine N) :
    (s.logLine line).Stopping ∧ Unexchanged s (s.logLine line) := by
  obtain ⟨current, hcurrent⟩ := Option.isSome_iff_exists.mp hs.current
  have hprefix : s.appended <+: s.appended ++ [line.1] := List.prefix_append _ _
  unfold AsyncLogging.logLine AsyncLogging.append
  rw [hcurrent]
  dsimp only
  split
  · exact ⟨{ hstopping with }, hprefix, rfl, Iff.rfl⟩
  · split
    · exact ⟨{ hstopping with }, hprefix, rfl, Iff.rfl⟩
    · exact ⟨{ hstopping with }, hprefix, rfl, Iff.rfl⟩

/-- The back end moves on; `Stop` is still joining it. -/
theorem Stopping.move (hstopping : s.Stopping) (hpoint : s.point ≠ .finished)
    (hrunning : t.running = s.running) (howner : t.owner = s.owner) : t.Stopping := by
  constructor
  · rw [hrunning]
    exact hstopping.running
  · rw [howner]
    exact Or.inl (hstopping.owner.resolve_right fun h => hpoint h.2)

theorem Stopping.swap (hstopping : s.Stopping) (hs : s.Inv) (hexchanging : s.Exchanging) :
    s.swap.Stopping := by
  obtain ⟨current, hcurrent⟩ := Option.isSome_iff_exists.mp hs.current
  have hpoint : s.point ≠ .finished := by
    rcases hexchanging with h | h <;> simp [h]
  rw [AsyncLogging.swap, hcurrent]
  exact hstopping.move hpoint rfl rfl

/-- Once `running_` is cleared, an exchange is the last. -/
theorem Stopping.step {action : AsyncLoggingAction N} (hstopping : s.Stopping) (hs : s.Inv)
    (hstep : s.step action = some t) :
    t.Stopping ∧ (Unexchanged s t ∨ s.Exchanging ∧ t = s.swap) := by
  cases step_cases hstep with
  | append line => exact (hstopping.logLine hs line).imp_right Or.inl
  | start howner | startFails howner | waitLatch howner | stop howner =>
      -- `Stop` has been called
      rcases hstopping.owner with h | ⟨h, -⟩ <;> simp [howner] at h
  | join howner hthread hpoint =>
      exact ⟨⟨hstopping.running, Or.inr ⟨rfl, hpoint⟩⟩, Or.inl ⟨List.prefix_rfl, rfl, Iff.rfl⟩⟩
  | joinFails howner hthread =>
      exact ⟨{ hstopping with }, Or.inl ⟨List.prefix_rfl, rfl, Iff.rfl⟩⟩
  | countDown hpoint =>
      have hmove : s.countDown.Stopping := hstopping.move (by simp [hpoint]) rfl rfl
      refine ⟨hmove, Or.inl ⟨List.prefix_rfl, rfl, ?_⟩⟩
      simp [Exchanging, hpoint, AsyncLogging.countDown]
  | testRunning hpoint =>
      -- the test fails: it is the last
      rw [AsyncLogging.testRunning, if_pos (hs.spares (Or.inl hpoint)),
        if_neg (by simp [hstopping.running])]
      refine ⟨hstopping.move (by simp [hpoint]) rfl rfl, Or.inl ⟨List.prefix_rfl, rfl, ?_⟩⟩
      simp [Exchanging, hpoint]
  | wait hpoint =>
      refine ⟨hstopping.move (by simp [hpoint]) rfl rfl, Or.inl ⟨List.prefix_rfl, rfl, ?_⟩⟩
      exact iff_of_true (Or.inr rfl) (Or.inl hpoint)
  | enter hpoint =>
      have hexchanging : s.Exchanging := Or.inl hpoint
      exact ⟨hstopping.swap hs hexchanging, Or.inr ⟨hexchanging, rfl⟩⟩
  | wake hpoint =>
      have hexchanging : s.Exchanging := Or.inr hpoint
      exact ⟨hstopping.swap hs hexchanging, Or.inr ⟨hexchanging, rfl⟩⟩
  | truncate hpoint =>
      have hholds := hs.holds
      simp only [Holds, hpoint] at hholds
      rw [AsyncLogging.truncate, if_neg hholds.2.1]
      refine ⟨hstopping.move (by simp [hpoint]) rfl rfl, Or.inl ⟨List.prefix_rfl, rfl, ?_⟩⟩
      simp [Exchanging, hpoint]
  | write hpoint =>
      refine ⟨hstopping.move (by simp [hpoint]) rfl rfl, Or.inl ⟨List.prefix_rfl, rfl, ?_⟩⟩
      simp [Exchanging, hpoint]
  | refill hpoint =>
      have hmove : ∀ t : AsyncLogging N, t.running = s.running → t.owner = s.owner →
          t.Stopping := by
        intro t
        exact hstopping.move (by simp [hpoint])
      unfold AsyncLogging.refill
      split
      · exact ⟨hmove s.fail rfl rfl, Or.inl ⟨List.prefix_rfl, rfl, Iff.rfl⟩⟩
      · split
        · exact ⟨hmove s.fail rfl rfl, Or.inl ⟨List.prefix_rfl, rfl, Iff.rfl⟩⟩
        · refine ⟨hmove _ rfl rfl, Or.inl ⟨List.prefix_rfl, rfl, ?_⟩⟩
          simp [Exchanging, hpoint]

/-! ## What gets to the file -/

/-- The lines appended before `running_` was cleared, seen later: the exchange that takes
them is still as far off as it was, or it has been made. -/
def Pending (s t : AsyncLogging N) : Prop :=
  t.swaps = s.swaps ∧ (t.Exchanging ↔ s.Exchanging) ∨
    s.Exchanging ∧ ¬ t.Exchanging ∧ s.appended.flatten <+: bytesOf t.swaps.flatten

/-- An exchange takes all lines there are. -/
theorem LineInv.swap_takes (hline : s.LineInv) (hs : s.Inv) :
    ¬ s.swap.Exchanging ∧ bytesOf s.swap.swaps.flatten = s.appended.flatten := by
  obtain ⟨current, hcurrent⟩ := Option.isSome_iff_exists.mp hs.current
  have hfilled := hline.bytesOf_filled
  rw [filled, hcurrent] at hfilled
  rw [AsyncLogging.swap, hcurrent]
  refine ⟨by simp [Exchanging], ?_⟩
  rw [← hfilled]
  simp

structure SinceStop (s t : AsyncLogging N) : Prop where
  inv : t.Inv
  line : t.LineInv
  stopping : t.Stopping
  appended : s.appended <+: t.appended
  pending : Pending s t

theorem SinceStop.step {action : AsyncLoggingAction N} (hst : SinceStop s t)
    (hstep : t.step action = some u) : SinceStop s u := by
  obtain ⟨hstopping, hcases⟩ := hst.stopping.step hst.inv hstep
  have hinv := hst.inv.step hstep
  have hline := hst.line.step hst.inv hstep
  rcases hcases with hsame | ⟨hexchanging, rfl⟩
  · -- the exchange is as far off as it was
    refine ⟨hinv, hline, hstopping, hst.appended.trans hsame.appended, ?_⟩
    rw [Pending, hsame.swaps, hsame.exchanging]
    exact hst.pending
  · obtain ⟨hdone, htaken⟩ := hst.line.swap_takes hst.inv
    have happended : t.swap.appended = t.appended := frame_swap.2
    refine ⟨hinv, hline, hstopping, happended ▸ hst.appended, Or.inr ⟨?_, hdone, ?_⟩⟩
    · rcases hst.pending with ⟨-, h⟩ | ⟨h, -⟩
      · exact h.mp hexchanging
      · exact h
    · rw [htaken]
      exact List.IsPrefix.flatten hst.appended

/-- What `Stop` finds outside the file and the buffers that go to it. -/
def unexchanged (s : AsyncLogging N) : Bytes := bytesOf s.buffers ++ bytesOf s.current.toList

theorem LineInv.appended_eq (hline : s.LineInv) :
    s.appended.flatten = bytesOf s.swaps.flatten ++ s.unexchanged := by
  rw [← hline.bytesOf_filled, filled, bytesOf_append, bytesOf_append, List.append_assoc]
  rfl

/-- When `Stop` has returned, the buffers that were exchanged are in the file. -/
theorem LineInv.fileBytes_of_finished (hline : s.LineInv) (hpoint : s.point = .finished)
    (hsmall : ∀ swap ∈ s.swaps, swap.length ≤ maxToWrite) :
    s.fileBytes = bytesOf s.swaps.flatten := by
  have hwritten := hline.written
  have hunwritten : s.unwritten = [] := by simp [unwritten, hpoint]
  rw [hunwritten, flatMap_kept hsmall] at hwritten
  rw [hline.fileBytes_eq hsmall, ← hwritten]
  simp [bytesOf]

/-- **`Stop` drains the logger** exactly if the back end has passed the test of its loop and
not yet made its exchange when `running_` is cleared, or there was nothing to exchange. -/
theorem drains_iff (before after : List (AsyncLoggingAction N))
    (hbefore : (machine N).exec (machine N).init before = some s) (hstop : s.step .stop = some t)
    (hafter : (machine N).exec t after = some u) (hstopped : u.owner = .stopped)
    (hsmall : ∀ swap ∈ u.swaps, swap.length ≤ maxToWrite) :
    s.appended.flatten <+: u.fileBytes ↔ s.Exchanging ∨ s.unexchanged = [] := by
  obtain ⟨hs, hline⟩ := Machine.exec_invariant (m := machine N) (I := fun s => s.Inv ∧ s.LineInv)
    (fun _ _ _ hs hstep => ⟨hs.1.step hstep, hs.2.step hs.1 hstep⟩) ⟨inv_new, lineInv_new⟩ hbefore
  have ht : SinceStop s t := by
    have hinv := hs.step hstop
    have hline := hline.step hs hstop
    unfold AsyncLogging.step at hstop
    rw [if_neg (by simp [hs.notFailed])] at hstop
    dsimp only at hstop
    split at hstop <;> cases hstop
    exact ⟨hinv, hline, ⟨rfl, Or.inl rfl⟩, List.prefix_rfl, Or.inl ⟨rfl, Iff.rfl⟩⟩
  have hu : SinceStop s u :=
    Machine.exec_related (m := machine N) (R := SinceStop) (G := fun _ => True)
      (fun _ _ _ _ hst _ hstep => hst.step hstep) ht (fun _ _ => trivial) hafter
  have hpoint : u.point = .finished := by
    rcases hu.stopping.owner with h | h
    · rw [h] at hstopped
      cases hstopped
    · exact h.2
  rw [hu.line.fileBytes_of_finished hpoint hsmall]
  have hdone : ¬ u.Exchanging := by simp [Exchanging, hpoint]
  rcases hu.pending with ⟨hswaps, hexchanging⟩ | ⟨hexchanging, -, htaken⟩
  · -- no exchange since: what was not exchanged then is not in the file
    rw [hswaps, hline.appended_eq, or_iff_right (hexchanging.not.mp hdone)]
    constructor
    · intro hprefix
      have hlength := hprefix.length_le
      rw [List.length_append] at hlength
      exact List.eq_nil_of_length_eq_zero (by omega)
    · intro hnone
      rw [hnone, List.append_nil]
  · exact iff_of_true htaken (Or.inl hexchanging)

/-- The line of the runs below. -/
def lineA : LogLine kBigSize := ⟨ascii "a", by decide⟩

/-- `Stop` while the back end waits for lines. -/
def waitingRun : List (AsyncLoggingAction kBigSize) :=
  [.start, .countDown, .waitLatch, .append lineA, .testRunning, .enter]

def finishRun : List (AsyncLoggingAction kBigSize) :=
  [.wake, .truncate, .write, .refill, .testRunning, .join]

theorem drains_iff_waiting : ∃ s t u : AsyncLogging kBigSize,
    (machine kBigSize).exec (machine kBigSize).init waitingRun = some s ∧
      s.step .stop = some t ∧ (machine kBigSize).exec t finishRun = some u ∧
      s.appended.flatten <+: u.fileBytes := by
  refine ⟨_, _, _, rfl, rfl, rfl, ?_⟩
  apply (drains_iff waitingRun finishRun rfl rfl rfl rfl _).mpr (Or.inl (Or.inr rfl))
  intro swap hswap
  have hswap : swap ∈ [[LogBuffer.append (.new 0) lineA.1]] := hswap
  rw [List.mem_singleton] at hswap
  rw [hswap]
  decide

/-- `Start` has returned and a line has been appended, but the back end has not yet come to
its loop: `Stop` returns, and the file is empty. -/
theorem stop_loses_line : ∃ s t u : AsyncLogging kBigSize,
    (machine kBigSize).exec (machine kBigSize).init
        [.start, .countDown, .waitLatch, .append lineA] = some s ∧
      s.step .stop = some t ∧ (machine kBigSize).exec t [.testRunning, .join] = some u ∧
      u.owner = .stopped ∧ s.appended = [ascii "a"] ∧ u.swaps = [] ∧ u.file = [] ∧
      ¬ s.appended.flatten <+: u.fileBytes :=
  ⟨_, _, _, rfl, rfl, rfl, rfl, rfl, rfl, rfl, by decide⟩

end AsyncLogging

end YxAlpha
