import Mathlib.Algebra.Order.Ring.Nat
import YxAlpha.Logger.AsyncLogging

/-!
# The exchange of buffers

Front end and back end hand the buffers of the logger back and forth.  The front end runs
out of buffers only after it has filled one (`Inv.dry`), and so the back end, which then
gives away its second spare buffer too, gets at least two for the two it has given away:
it never lacks one, and neither does the front end (`never_dry`).
-/

namespace YxAlpha

namespace AsyncLogging

variable {N : ℕ} {s t : AsyncLogging N}

/-- The buffer objects in the slots and lists, with repetitions. -/
def owned (s : AsyncLogging N) : List ℕ :=
  (s.current.toList ++ s.next.toList ++ s.buffers ++ s.newBuffer1.toList ++ s.newBuffer2.toList ++
    s.buffersToWrite).map LogBuffer.id

structure NeverDry (s : AsyncLogging N) : Prop where
  asserts : s.failed = false
  current : s.current.isSome
  /-- No object is in two places. -/
  owned : s.owned.Nodup
  spares : s.point = .testing ∨ s.point = .entering ∨ s.point = .waiting →
    Spare s.newBuffer1 ∧ Spare s.newBuffer2 ∧ s.buffersToWrite = []
  swapped : s.point = .swapped → s.buffersToWrite ≠ []
  /-- The buffers left are enough for the spare buffers given away. -/
  refills : ∀ rest, s.point = .writing rest →
    s.newBuffer1.isNone.toNat + s.newBuffer2.isNone.toNat ≤ (s.buffersToWrite.take 2).length

/-! ## The invariant -/

/-- What the back end holds at its point. -/
def Holds (s : AsyncLogging N) : Prop :=
  match s.point with
  | .notStarted | .started | .finished =>
      s.newBuffer1 = none ∧ s.newBuffer2 = none ∧ s.buffersToWrite = []
  | .testing | .entering | .waiting =>
      Spare s.newBuffer1 ∧ Spare s.newBuffer2 ∧ s.buffersToWrite = []
  | .swapped | .writing _ =>
      s.newBuffer1 = none ∧ s.buffersToWrite ≠ [] ∧
        (Spare s.newBuffer2 ∨ s.newBuffer2 = none ∧ 2 ≤ s.buffersToWrite.length)

/-- The objects owned have been made, and are in one place each. -/
structure OwnedOnce (s : AsyncLogging N) : Prop where
  count_le : ∀ i, s.owned.count i ≤ 1
  lt_made : ∀ i ∈ s.owned, i < s.made

structure Inv (s : AsyncLogging N) : Prop where
  notFailed : s.failed = false
  current : s.current.isSome
  nextEmpty : ∀ b, s.next = some b → b.buffer.currentLength = 0
  /-- The spare buffer of the front end is missing only when a buffer is full. -/
  dry : s.next = none → s.buffers ≠ []
  holds : s.Holds
  once : s.OwnedOnce
  thread : s.thread.started = false ↔ s.owner = .idle
  joined : s.owner ≠ .stopped → s.thread.joined = false
  idle : s.owner = .idle ↔ s.point = .notStarted

theorem inv_new : (new : AsyncLogging N).Inv where
  notFailed := rfl
  current := rfl
  nextEmpty b h := by
    cases h
    rfl
  dry h := by cases h
  holds := ⟨rfl, rfl, rfl⟩
  once := by
    have howned : (new : AsyncLogging N).owned = [0, 1] := rfl
    constructor
    · rw [howned]
      exact List.nodup_iff_count_le_one.mp (by decide)
    · rw [howned]
      show ∀ i ∈ [0, 1], i < 2
      decide
  thread := by simp [new, Thread.new]
  joined _ := rfl
  idle := by simp [new]

/-! ## Owners -/

/-- The objects of `t` are those of `s` and new ones, and maybe not all of them. -/
def Keeps (s t : AsyncLogging N) : Prop :=
  s.made ≤ t.made ∧
    ∀ i, t.owned.count i ≤ s.owned.count i + if s.made ≤ i ∧ i < t.made then 1 else 0

theorem OwnedOnce.of_keeps (hs : s.OwnedOnce) (hst : Keeps s t) : t.OwnedOnce := by
  obtain ⟨hmade, hcount⟩ := hst
  have hnone : ∀ i, s.made ≤ i → s.owned.count i = 0 := by
    intro i hi
    rw [List.count_eq_zero]
    intro hmem
    have := hs.lt_made i hmem
    omega
  constructor
  · intro i
    have hi := hcount i
    have hle := hs.count_le i
    have hzero := hnone i
    split at hi <;> omega
  · intro i hi
    have hpos := List.count_pos_iff.mpr hi
    have hle := hcount i
    have hlt : 0 < s.owned.count i → i < s.made := fun h => hs.lt_made i (List.count_pos_iff.mp h)
    split at hle <;> omega

theorem OwnedOnce.frame (hs : s.OwnedOnce) (howned : t.owned = s.owned) (hmade : t.made = s.made) :
    t.OwnedOnce :=
  ⟨howned ▸ hs.count_le, howned ▸ hmade ▸ hs.lt_made⟩

theorem count_owned (i : ℕ) : s.owned.count i =
    (s.current.toList.map LogBuffer.id).count i + (s.next.toList.map LogBuffer.id).count i +
      (s.buffers.map LogBuffer.id).count i + (s.newBuffer1.toList.map LogBuffer.id).count i +
      (s.newBuffer2.toList.map LogBuffer.id).count i +
      (s.buffersToWrite.map LogBuffer.id).count i := by
  simp only [owned, List.map_append, List.count_append]

/-! ## Steps -/

theorem Inv.not_idle (hs : s.Inv) (hpoint : s.point ≠ .notStarted) : s.owner ≠ .idle :=
  fun h => hpoint (hs.idle.mp h)

/-- The thread that `Stop` joins has been started, and not been joined. -/
theorem Inv.joinable (hs : s.Inv) (howner : s.owner = .stopping) :
    s.thread.started = true ∧ s.thread.joined = false := by
  constructor
  · by_contra h
    have hidle := hs.thread.mp (by simpa using h)
    rw [howner] at hidle
    cases hidle
  · exact hs.joined (by simp [howner])

theorem Inv.spares (hs : s.Inv)
    (hpoint : s.point = .testing ∨ s.point = .entering ∨ s.point = .waiting) :
    Spare s.newBuffer1 ∧ Spare s.newBuffer2 ∧ s.buffersToWrite = [] := by
  have hholds := hs.holds
  rcases hpoint with h | h | h <;> simpa only [Holds, h] using hholds

theorem Inv.append (hs : s.Inv) (line : LogLine N) : (s.append line).Inv := by
  obtain ⟨current, hcurrent⟩ := Option.isSome_iff_exists.mp hs.current
  unfold AsyncLogging.append
  rw [hcurrent]
  dsimp only
  split
  · -- the line fits
    have hkeeps : Keeps s { s with current := some (current.append line) } :=
      ⟨le_rfl, by simp [count_owned, hcurrent, LogBuffer.append]⟩
    exact { hs with current := rfl, once := hs.once.of_keeps hkeeps }
  · split
    · -- the spare buffer takes over
      rename_i next hnext
      have hkeeps : Keeps s { s with
          buffers := s.buffers ++ [current]
          current := some (next.append line), next := none } := by
        refine ⟨le_rfl, ?_⟩
        intro i
        simp [count_owned, hcurrent, hnext, LogBuffer.append]
        omega
      exact { hs with
        current := rfl
        nextEmpty := nofun
        dry := fun _ => by simp
        once := hs.once.of_keeps hkeeps }
    · -- there is none: a buffer is made
      rename_i hnext
      have hkeeps : Keeps s { s with
          buffers := s.buffers ++ [current]
          current := some ((LogBuffer.new s.made).append line), made := s.made + 1 } := by
        refine ⟨Nat.le_succ _, ?_⟩
        intro i
        simp only [count_owned, hcurrent, hnext, LogBuffer.append, LogBuffer.new,
          Option.toList_some,
          Option.toList_none, List.map_append, List.map_cons, List.map_nil, List.count_append,
          List.count_cons, List.count_nil, beq_iff_eq]
        split_ifs <;> omega
      exact { hs with
        current := rfl
        dry := fun _ => by simp
        once := hs.once.of_keeps hkeeps }

theorem Inv.countDown (hs : s.Inv) (hpoint : s.point = .started) : s.countDown.Inv := by
  have hholds := hs.holds
  simp only [Holds, hpoint] at hholds
  obtain ⟨hfirst, hsecond, hempty⟩ := hholds
  have hkeeps : Keeps s s.countDown := by
    refine ⟨Nat.le_add_right _ 2, ?_⟩
    intro i
    have hmade : s.countDown.made = s.made + 2 := rfl
    rw [hmade]
    simp only [AsyncLogging.countDown, count_owned, hfirst, hsecond, LogBuffer.new,
      Option.toList_some, Option.toList_none, List.map_cons, List.map_nil, List.count_cons,
      List.count_nil, beq_iff_eq]
    split_ifs <;> omega
  exact { hs with
    holds := ⟨⟨_, rfl, rfl⟩, ⟨_, rfl, rfl⟩, hempty⟩
    once := hs.once.of_keeps hkeeps
    idle := iff_of_false (hs.not_idle (by simp [hpoint])) nofun }

theorem Inv.testRunning (hs : s.Inv) (hpoint : s.point = .testing) : s.testRunning.Inv := by
  have hholds := hs.spares (Or.inl hpoint)
  have hidle := hs.not_idle (by simp [hpoint])
  unfold AsyncLogging.testRunning
  rw [if_pos hholds]
  split
  · exact { hs with
      holds := hholds
      once := hs.once.frame rfl rfl
      idle := iff_of_false hidle nofun }
  · have hkeeps :
      Keeps s { s with newBuffer1 := none, newBuffer2 := none, point := .finished } := by
      refine ⟨le_rfl, ?_⟩
      intro i
      simp only [count_owned, Option.toList_none, List.map_nil, List.count_nil]
      omega
    exact { hs with
      holds := ⟨rfl, rfl, hholds.2.2⟩
      once := hs.once.of_keeps hkeeps
      idle := iff_of_false hidle nofun }

/-- The exchange: the second spare buffer is given away only together with a full one. -/
theorem Inv.swap (hs : s.Inv) (hpoint : s.point = .entering ∨ s.point = .waiting) : s.swap.Inv := by
  obtain ⟨⟨first, hfirst, hfirstEmpty⟩, ⟨second, hsecond, hsecondEmpty⟩, hempty⟩ :=
    hs.spares (Or.inr hpoint)
  obtain ⟨current, hcurrent⟩ := Option.isSome_iff_exists.mp hs.current
  have hidle := hs.not_idle (by rcases hpoint with h | h <;> simp [h])
  have hkeeps : Keeps s s.swap := by
    refine ⟨?_, ?_⟩
    · simp [AsyncLogging.swap, hcurrent]
    · intro i
      cases hnext : s.next with
      | none =>
          simp [AsyncLogging.swap, count_owned, hcurrent, hfirst, hsecond, hempty, hnext]
          omega
      | some next =>
          simp [AsyncLogging.swap, count_owned, hcurrent, hfirst, hsecond, hempty, hnext]
          omega
  have honce := hs.once.of_keeps hkeeps
  unfold AsyncLogging.swap at honce ⊢
  rw [hcurrent] at honce ⊢
  cases hnext : s.next with
  | none =>
      -- the front end is dry, so at least two buffers are swapped out
      have hlength : 2 ≤ (s.buffers ++ [current]).length := by
        have := List.length_pos_of_ne_nil (hs.dry hnext)
        rw [List.length_append, List.length_singleton]
        omega
      exact { hs with
        current := by simp [hfirst]
        nextEmpty := by simpa [hsecond] using hsecondEmpty
        dry := by simp [hsecond]
        holds := ⟨rfl, by simp, Or.inr ⟨by simp, hlength⟩⟩
        once := by simpa [hnext] using honce
        idle := iff_of_false hidle nofun }
  | some next =>
      exact { hs with
        current := by simp [hfirst]
        nextEmpty := by simpa [hnext] using hs.nextEmpty next hnext
        dry := by simp
        holds := ⟨rfl, by simp, Or.inl ⟨second, by simp [hsecond], hsecondEmpty⟩⟩
        once := by simpa [hnext] using honce
        idle := iff_of_false hidle nofun }

theorem kept_sublist (buffers : List (LogBuffer N)) : (kept buffers).Sublist buffers := by
  unfold kept
  split
  · exact List.take_sublist 2 buffers
  · exact List.Sublist.refl _

/-- Too many buffers are still enough for the spare ones. -/
theorem two_le_length_kept {buffers : List (LogBuffer N)} (h : 2 ≤ buffers.length) :
    2 ≤ (kept buffers).length := by
  unfold kept
  split
  · rw [List.length_take]
    omega
  · exact h

theorem kept_ne_nil {buffers : List (LogBuffer N)} (h : buffers ≠ []) : kept buffers ≠ [] := by
  unfold kept
  split
  · simpa using h
  · exact h

theorem Inv.truncate (hs : s.Inv) (hpoint : s.point = .swapped) : s.truncate.Inv := by
  have hholds := hs.holds
  simp only [Holds, hpoint] at hholds
  obtain ⟨hfirst, hswapped, hsecond⟩ := hholds
  have hkeeps : Keeps s s.truncate := by
    rw [AsyncLogging.truncate, if_neg hswapped]
    refine ⟨le_rfl, ?_⟩
    intro i
    have hcount := ((kept_sublist s.buffersToWrite).map LogBuffer.id).count_le i
    simp only [count_owned]
    omega
  have honce := hs.once.of_keeps hkeeps
  rw [AsyncLogging.truncate, if_neg hswapped] at honce ⊢
  exact { hs with
    holds :=
        ⟨hfirst, kept_ne_nil hswapped, hsecond.imp_right fun h => ⟨h.1, two_le_length_kept h.2⟩⟩
    once := honce
    idle := iff_of_false (hs.not_idle (by simp [hpoint])) nofun }

theorem refillSlot_some {b : LogBuffer N} {buffers : List (LogBuffer N)} :
    refillSlot (some b) buffers = some (b, buffers) := rfl

theorem refillSlot_none {buffers : List (LogBuffer N)} (h : buffers ≠ []) :
    ∃ rest b, buffers = rest ++ [b] ∧ refillSlot none buffers = some (b.reset, rest) := by
  refine ⟨buffers.dropLast, buffers.getLast h, (List.dropLast_append_getLast h).symm, ?_⟩
  rw [refillSlot, List.getLast?_eq_some_getLast h]
  rfl

/-- The refill finds a buffer for each spare one that was given away. -/
theorem Inv.refill (hs : s.Inv) (hpoint : s.point = .writing []) : s.refill.Inv := by
  have hholds := hs.holds
  simp only [Holds, hpoint] at hholds
  obtain ⟨hfirst, hwritten, hsecond⟩ := hholds
  have hidle := hs.not_idle (by simp [hpoint])
  have hleft : s.buffersToWrite.take 2 ≠ [] := by simpa using hwritten
  obtain ⟨rest, first, hrest, hrefill⟩ := refillSlot_none hleft
  have hcount : ∀ i, (rest.map LogBuffer.id).count i + (if first.id = i then 1 else 0) ≤
      (s.buffersToWrite.map LogBuffer.id).count i := by
    intro i
    have hsub := ((List.take_sublist 2 s.buffersToWrite).map LogBuffer.id).count_le i
    rw [hrest] at hsub
    simpa [List.count_cons] using hsub
  unfold AsyncLogging.refill
  rw [hfirst, hrefill]
  dsimp only
  rcases hsecond with ⟨second, hsecond, hempty⟩ | ⟨hsecond, hlength⟩
  · -- only the first spare buffer was given away
    rw [hsecond, refillSlot_some]
    dsimp only
    have hkeeps : Keeps s { s with newBuffer1 := some first.reset, newBuffer2 := some second
                                   buffersToWrite := [], point := .testing } := by
      refine ⟨le_rfl, ?_⟩
      intro i
      have := hcount i
      simp only [count_owned, hfirst, hsecond, LogBuffer.reset, Option.toList_some,
        Option.toList_none, List.map_cons, List.map_nil, List.count_cons, List.count_nil,
        beq_iff_eq]
      omega
    exact { hs with
      holds := ⟨⟨_, rfl, rfl⟩, ⟨second, rfl, hempty⟩, rfl⟩
      once := hs.once.of_keeps hkeeps
      idle := iff_of_false hidle nofun }
  · -- both were
    have hmore : rest ≠ [] := by
      rintro rfl
      have := congrArg List.length hrest
      simp only [List.length_take, List.nil_append, List.length_singleton] at this
      omega
    obtain ⟨last, second, rfl, hrefill'⟩ := refillSlot_none hmore
    rw [hsecond, hrefill']
    dsimp only
    have hkeeps : Keeps s { s with newBuffer1 := some first.reset, newBuffer2 := some second.reset
                                   buffersToWrite := [], point := .testing } := by
      refine ⟨le_rfl, ?_⟩
      intro i
      have := hcount i
      simp only [count_owned, hfirst, hsecond, LogBuffer.reset, Option.toList_some,
        Option.toList_none, List.map_cons, List.map_nil, List.count_cons, List.count_nil,
        beq_iff_eq,
        List.map_append, List.count_append] at this ⊢
      omega
    exact { hs with
      holds := ⟨⟨_, rfl, rfl⟩, ⟨_, rfl, rfl⟩, rfl⟩
      once := hs.once.of_keeps hkeeps
      idle := iff_of_false hidle nofun }

theorem Inv.step {action : AsyncLoggingAction N} (hs : s.Inv) (hstep : s.step action = some t) :
    t.Inv := by
  cases step_cases hstep with
  | append line => exact { hs.append line with once := (hs.append line).once.frame rfl rfl }
  | start howner hthread =>
      have hholds := hs.holds
      simp only [Holds, hs.idle.mp howner] at hholds
      have hjoined := hs.joined (by simp [howner])
      simp only [Thread.start, hs.thread.mpr howner, Bool.false_eq_true, if_false] at hthread
      cases hthread
      exact { hs with
        holds := hholds
        once := hs.once.frame rfl rfl
        thread := by simp
        joined := fun _ => hjoined
        idle := by simp }
  | startFails howner hthread =>
      simp [Thread.start, hs.thread.mpr howner] at hthread
  | waitLatch howner | stop howner =>
      have hidle : s.owner ≠ .idle := by simp [howner]
      exact { hs with
        once := hs.once.frame rfl rfl
        thread := hs.thread.trans (iff_of_false hidle nofun)
        joined := fun _ => hs.joined (by simp [howner])
        idle := iff_of_false nofun fun h => hidle (hs.idle.mpr h) }
  | join howner hthread hpoint =>
      simp only [Thread.join, hs.joinable howner, and_self, if_true] at hthread
      cases hthread
      exact { hs with
        once := hs.once.frame rfl rfl
        thread := by simp
        joined := fun h => absurd rfl h
        idle := iff_of_false nofun (by simp [hpoint]) }
  | joinFails howner hthread =>
      simp [Thread.join, hs.joinable howner] at hthread
  | countDown hpoint => exact hs.countDown hpoint
  | testRunning hpoint => exact hs.testRunning hpoint
  | wait hpoint =>
      have hholds := hs.holds
      simp only [Holds, hpoint] at hholds
      exact { hs with
        holds := hholds
        once := hs.once.frame rfl rfl
        idle := iff_of_false (hs.not_idle (by simp [hpoint])) nofun }
  | enter hpoint => exact hs.swap (Or.inl hpoint)
  | wake hpoint => exact hs.swap (Or.inr hpoint)
  | truncate hpoint => exact hs.truncate hpoint
  | write hpoint =>
      have hholds := hs.holds
      simp only [Holds, hpoint] at hholds
      exact { hs with
        holds := hholds
        once := hs.once.frame rfl rfl
        idle := iff_of_false (hs.not_idle (by simp [hpoint])) nofun }
  | refill hpoint => exact hs.refill hpoint

/-! ## No buffer is missing -/

theorem Inv.neverDry (hs : s.Inv) : s.NeverDry where
  asserts := hs.notFailed
  current := hs.current
  owned := List.nodup_iff_count_le_one.mpr hs.once.count_le
  spares := hs.spares
  swapped hpoint := by
    have hholds := hs.holds
    simp only [Holds, hpoint] at hholds
    exact hholds.2.1
  refills rest hpoint := by
    have hholds := hs.holds
    simp only [Holds, hpoint] at hholds
    obtain ⟨hfirst, hwritten, hsecond⟩ := hholds
    have hlength := List.length_pos_of_ne_nil hwritten
    rw [List.length_take, hfirst]
    rcases hsecond with ⟨second, hsecond, -⟩ | ⟨hsecond, htwo⟩
    · simp [hsecond]
      omega
    · simp [hsecond]
      omega

/-- **The exchange never runs dry**, in any run: the front end has a buffer whenever the
mutex is free, no object is in two places, and no assertion of the back end fails. -/
theorem never_dry (N : ℕ) (actions : List (AsyncLoggingAction N)) :
    (machine N).Throughout NeverDry (machine N).init actions :=
  (Machine.throughout_of_invariant (m := machine N) (I := Inv)
    (fun _ _ _ hs hstep => hs.step hstep) inv_new actions).mono fun _ hs => hs.neverDry

end AsyncLogging

end YxAlpha
