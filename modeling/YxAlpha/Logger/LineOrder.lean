import Mathlib.Data.List.Flatten
import YxAlpha.Logger.BufferExchange

/-!
# Lines of the log

Where the lines are that have been appended.  The buffers that were swapped out, those that
wait and the current one hold them in order, each buffer whole lines (`LineInv.lines`), and
of every swap the back end writes the buffers it keeps (`LineInv.written`).
-/

namespace YxAlpha

/-- The bytes of lines in a record; the back end adds the notices itself. -/
def FileRecord.lines : FileRecord → Bytes
  | notice _ => []
  | data bytes => bytes

namespace AsyncLogging

variable {N : ℕ} {s t : AsyncLogging N}

def bytesOf (buffers : List (LogBuffer N)) : Bytes := buffers.flatMap LogBuffer.data

/-- The buffers swapped out that are still to be written. -/
def unwritten (s : AsyncLogging N) : List (LogBuffer N) :=
  match s.point with
  | .swapped => kept s.buffersToWrite
  | .writing rest => rest
  | _ => []

def fileBytes (s : AsyncLogging N) : Bytes := s.file.flatMap FileRecord.bytes

def fileLines (s : AsyncLogging N) : Bytes := s.file.flatMap FileRecord.lines

/-- What is in the file, in the buffers to write, in the pending ones and in the current. -/
def everything (s : AsyncLogging N) (written : Bytes) : Bytes :=
  written ++ bytesOf s.unwritten ++ bytesOf s.buffers ++ bytesOf s.current.toList

/-- The buffers that have been filled, in order. -/
def filled (s : AsyncLogging N) : List (LogBuffer N) :=
  s.swaps.flatten ++ s.buffers ++ s.current.toList

/-- What has become of the lines `appended`. -/
structure LinesKept (appended : List Bytes) (s : AsyncLogging N) : Prop where
  /-- All lines are there, in order, when no swap was too large. -/
  all : (∀ swap ∈ s.swaps, swap.length ≤ maxToWrite) → s.everything s.fileBytes = appended.flatten
  /-- The buffers have been filled with whole lines. -/
  lines : ∃ groups : List (List Bytes), groups.flatten = appended ∧
    groups.map List.flatten = s.filled.map LogBuffer.data
  /-- Of every swap the kept buffers are written. -/
  written : s.fileLines ++ bytesOf s.unwritten = bytesOf (s.swaps.flatMap kept)
  /-- What is left is made of lines that have been appended, in order. -/
  remaining : ∃ left : List Bytes, left.Sublist appended ∧ s.everything s.fileLines = left.flatten

structure LineInv (s : AsyncLogging N) : Prop where
  lines : ∃ groups : List (List Bytes), groups.flatten = s.appended ∧
    groups.map List.flatten = s.filled.map LogBuffer.data
  written : s.fileLines ++ bytesOf s.unwritten = bytesOf (s.swaps.flatMap kept)
  /-- A notice stands for a swap that was too large. -/
  notices : ∀ n, .notice n ∈ s.file → ∃ swap ∈ s.swaps, maxToWrite < swap.length
  swapped : s.point = .swapped → s.buffersToWrite ∈ s.swaps

theorem lineInv_new : (new : AsyncLogging N).LineInv where
  lines := ⟨[[]], rfl, rfl⟩
  written := rfl
  notices := by simp [new]
  swapped := nofun

/-! ## Steps -/

/-- The data of a buffer that has room for the line. -/
theorem data_append {b : LogBuffer N} {line : Bytes} (h : line.length < b.buffer.available) :
    (b.append line).data = b.data ++ line :=
  FixedBuffer.data_append h

theorem data_of_empty {b : LogBuffer N} (h : b.buffer.currentLength = 0) : b.data = [] :=
  List.eq_nil_of_length_eq_zero h

theorem LineInv.logLine (hline : s.LineInv) (hs : s.Inv) (line : LogLine N) :
    (s.logLine line).LineInv := by
  obtain ⟨current, hcurrent⟩ := Option.isSome_iff_exists.mp hs.current
  obtain ⟨groups, happended, hgroups⟩ := hline.lines
  rw [filled, hcurrent, Option.toList_some, List.map_append, List.map_cons, List.map_nil] at hgroups
  -- A rotation: the line goes to an empty buffer.
  have hfresh : ∀ fresh : LogBuffer N, fresh.buffer.currentLength = 0 →
      ∃ groups : List (List Bytes), groups.flatten = s.appended ++ [line.1] ∧
        groups.map List.flatten =
          (s.swaps.flatten ++ (s.buffers ++ [current]) ++ [fresh.append line]).map
              LogBuffer.data := by
    intro fresh hempty
    have hroom : line.1.length < fresh.buffer.available := by
      have hlength : fresh.buffer.data.length = 0 := hempty
      have := line.2
      unfold FixedBuffer.available
      omega
    refine ⟨groups ++ [[line.1]], by simp [happended], ?_⟩
    rw [List.map_append, hgroups, ← List.append_assoc, List.map_append, List.map_append]
    simp [data_append hroom, data_of_empty hempty]
  unfold AsyncLogging.logLine AsyncLogging.append
  rw [hcurrent]
  dsimp only
  split
  · -- the line goes to the last of the filled buffers
    rename_i hroom
    obtain ⟨before, last, rfl, hbefore, hlast⟩ := List.map_eq_append_iff.mp hgroups
    obtain ⟨group, rfl, hgroup⟩ := List.map_eq_singleton_iff.mp hlast
    refine { hline with lines := ⟨before ++ [group ++ [line.1]], ?_, ?_⟩ }
    · show (before ++ [group ++ [line.1]]).flatten = s.appended ++ [line.1]
      rw [← happended]
      simp
    · show _ = (s.swaps.flatten ++ s.buffers ++ [current.append line]).map LogBuffer.data
      rw [List.map_append, hbefore, List.map_append, List.map_append]
      simp [data_append hroom, hgroup]
  · split
    · rename_i next hnext
      exact { hline with lines := hfresh next (hs.nextEmpty next hnext) }
    · exact { hline with lines := hfresh (.new s.made) rfl }

theorem LineInv.swap (hline : s.LineInv) (hs : s.Inv)
    (hpoint : s.point = .entering ∨ s.point = .waiting) : s.swap.LineInv := by
  obtain ⟨⟨first, hfirst, hfirstEmpty⟩, -, hempty⟩ := hs.spares (Or.inr hpoint)
  obtain ⟨current, hcurrent⟩ := Option.isSome_iff_exists.mp hs.current
  obtain ⟨groups, happended, hgroups⟩ := hline.lines
  have hwritten := hline.written
  have hunwritten : s.unwritten = [] := by
    rcases hpoint with h | h <;> simp [unwritten, h]
  rw [hunwritten] at hwritten
  unfold AsyncLogging.swap
  rw [hcurrent]
  constructor
  · refine ⟨groups ++ [[]], by simpa using happended, ?_⟩
    rw [List.map_append, hgroups]
    simp [filled, hcurrent, hfirst, hempty, data_of_empty hfirstEmpty]
  · simp only [fileLines, unwritten, List.flatMap_append, bytesOf] at hwritten ⊢
    simp [← hwritten]
  · intro n hn
    obtain ⟨swap, hswap, hlarge⟩ := hline.notices n hn
    exact ⟨swap, List.mem_append_left _ hswap, hlarge⟩
  · intro _
    simp

theorem LineInv.truncate (hline : s.LineInv) (hs : s.Inv) (hpoint : s.point = .swapped) :
    s.truncate.LineInv := by
  have hholds := hs.holds
  simp only [Holds, hpoint] at hholds
  rw [AsyncLogging.truncate, if_neg hholds.2.1]
  have hwritten := hline.written
  simp only [unwritten, hpoint] at hwritten
  refine { hline with written := ?_, notices := ?_, swapped := by simp }
  · simp only [unwritten, fileLines] at hwritten ⊢
    split
    · simpa [FileRecord.lines] using hwritten
    · exact hwritten
  · intro n hn
    dsimp only at hn
    split at hn
    · rename_i hlarge
      exact ⟨s.buffersToWrite, hline.swapped hpoint, hlarge⟩
    · exact hline.notices n hn

/-- A step that touches no buffer with a line. -/
theorem LineInv.frame (hline : s.LineInv) (happended : t.appended = s.appended)
    (hfilled : t.filled = s.filled) (hfile : t.file = s.file) (hswaps : t.swaps = s.swaps)
    (hunwritten : t.unwritten = s.unwritten) (hpoint : t.point ≠ .swapped) : t.LineInv where
  lines := by rw [happended, hfilled]; exact hline.lines
  written := by rw [fileLines, hfile, hunwritten, hswaps]; exact hline.written
  notices := by rw [hfile, hswaps]; exact hline.notices
  swapped h := absurd h hpoint

theorem LineInv.step {action : AsyncLoggingAction N} (hline : s.LineInv) (hs : s.Inv)
    (hstep : s.step action = some t) : t.LineInv := by
  cases step_cases hstep with
  | append line => exact hline.logLine hs line
  | start howner hthread =>
      have hpoint := hs.idle.mp howner
      exact hline.frame rfl rfl rfl rfl (by simp [unwritten, hpoint]) (by simp)
  | startFails | waitLatch | stop | join | joinFails => exact { hline with }
  | countDown hpoint =>
      exact hline.frame rfl rfl rfl rfl (by simp [unwritten, hpoint, AsyncLogging.countDown])
        (by simp [AsyncLogging.countDown])
  | testRunning hpoint =>
      rw [AsyncLogging.testRunning, if_pos (hs.spares (Or.inl hpoint))]
      split
      · exact hline.frame rfl rfl rfl rfl (by simp [unwritten, hpoint]) (by simp)
      · exact hline.frame rfl rfl rfl rfl (by simp [unwritten, hpoint]) (by simp)
  | wait hpoint => exact hline.frame rfl rfl rfl rfl (by simp [unwritten, hpoint]) (by simp)
  | enter hpoint => exact hline.swap hs (Or.inl hpoint)
  | wake hpoint => exact hline.swap hs (Or.inr hpoint)
  | truncate hpoint => exact hline.truncate hs hpoint
  | write hpoint =>
      have hwritten := hline.written
      simp only [fileLines, unwritten, hpoint, bytesOf, List.flatMap_cons] at hwritten
      refine { hline with
        written := ?_, notices := by simpa using hline.notices, swapped := by simp }
      simpa [fileLines, unwritten, bytesOf, FileRecord.lines] using hwritten
  | refill hpoint =>
      have hfail : s.fail.LineInv := { hline with }
      unfold AsyncLogging.refill
      split
      · exact hfail
      · split
        · exact hfail
        · exact hline.frame rfl rfl rfl rfl (by simp [unwritten, hpoint]) (by simp)

/-! ## What is missing -/

theorem kept_of_le {buffers : List (LogBuffer N)} (h : buffers.length ≤ maxToWrite) :
    kept buffers = buffers :=
  if_neg (Nat.not_lt.mpr h)

theorem bytesOf_append (buffers more : List (LogBuffer N)) :
    bytesOf (buffers ++ more) = bytesOf buffers ++ bytesOf more :=
  List.flatMap_append

/-- Without notices the file holds lines only. -/
theorem LineInv.fileBytes_eq (hline : s.LineInv)
    (hsmall : ∀ swap ∈ s.swaps, swap.length ≤ maxToWrite) : s.fileBytes = s.fileLines := by
  apply List.flatMap_congr
  intro record hrecord
  cases record with
  | notice n =>
      obtain ⟨swap, hswap, hlarge⟩ := hline.notices n hrecord
      exact absurd (hsmall swap hswap) (Nat.not_le.mpr hlarge)
  | data bytes => rfl

/-- What has been filled is what has been appended. -/
theorem LineInv.bytesOf_filled (hline : s.LineInv) : bytesOf s.filled = s.appended.flatten := by
  obtain ⟨groups, happended, hgroups⟩ := hline.lines
  rw [← happended, List.flatten_flatten, hgroups]
  rfl

/-- The lines that are left: those of the buffers that are kept. -/
theorem LineInv.everything_fileLines (hline : s.LineInv) :
    s.everything s.fileLines =
      bytesOf (s.swaps.flatMap kept ++ s.buffers ++ s.current.toList) := by
  rw [everything, hline.written, bytesOf_append, bytesOf_append]

theorem flatMap_kept {swaps : List (List (LogBuffer N))}
    (hsmall : ∀ swap ∈ swaps, swap.length ≤ maxToWrite) : swaps.flatMap kept = swaps.flatten := by
  rw [← List.flatMap_id]
  exact List.flatMap_congr fun swap hswap => kept_of_le (hsmall swap hswap)

theorem LineInv.linesKept (hline : s.LineInv) : s.LinesKept s.appended where
  all hsmall := by
    rw [hline.fileBytes_eq hsmall, hline.everything_fileLines, flatMap_kept hsmall]
    exact hline.bytesOf_filled
  lines := hline.lines
  written := hline.written
  remaining := by
    obtain ⟨groups, happended, hgroups⟩ := hline.lines
    -- the kept buffers are some of the filled ones, in order
    have hsub : (s.swaps.flatMap kept ++ s.buffers ++ s.current.toList).Sublist s.filled := by
      have hswaps : (s.swaps.flatMap kept).Sublist s.swaps.flatten := by
        rw [← List.flatMap_id]
        exact List.Sublist.flatMap_right s.swaps fun swap _ => kept_sublist swap
      exact (hswaps.append_right s.buffers).append_right s.current.toList
    have hleft := hsub.map LogBuffer.data
    rw [← hgroups, List.sublist_map_iff] at hleft
    obtain ⟨left, hleft, hdata⟩ := hleft
    refine ⟨left.flatten, ?_, ?_⟩
    · rw [← happended]
      exact hleft.flatten
    · rw [hline.everything_fileLines, List.flatten_flatten, ← hdata]
      rfl

/-- The record of the calls of `Append`. -/
theorem appended_step {action : AsyncLoggingAction N} (hstep : s.step action = some t) :
    t.appended = s.appended ++ action.line?.toList := by
  have hsame : t.appended = s.appended → t.appended = s.appended ++ [] :=
    fun h => h.trans (List.append_nil _).symm
  cases step_cases hstep with
  | append line => rfl
  | testRunning => exact hsame frame_testRunning.2
  | enter | wake => exact hsame frame_swap.2
  | truncate => exact hsame appended_truncate
  | refill => exact hsame frame_refill.2
  | _ => exact hsame rfl

theorem appended_exec {actions : List (AsyncLoggingAction N)}
    (hrun : (machine N).exec s actions = some t) :
    t.appended = s.appended ++ linesAppended actions :=
  Machine.log_eq_filterMap (m := machine N) (I := fun _ => True) AsyncLogging.appended
    (fun _ _ _ _ _ => trivial) (fun _ _ _ _ hstep => appended_step hstep) trivial hrun

/-- **The log keeps every line** of the calls of `Append`, in any run. -/
theorem lines_kept {actions : List (AsyncLoggingAction N)}
    (hrun : (machine N).exec (machine N).init actions = some s) :
    s.LinesKept (linesAppended actions) := by
  obtain ⟨-, hline⟩ := Machine.exec_invariant (m := machine N) (I := fun s => s.Inv ∧ s.LineInv)
    (fun _ _ _ hs hstep => ⟨hs.1.step hstep, hs.2.step hs.1 hstep⟩) ⟨inv_new, lineInv_new⟩ hrun
  have happended : s.appended = linesAppended actions := appended_exec hrun
  rw [← happended]
  exact hline.linesKept

/-- A line that fills a buffer is written while another comes. -/
def rotatingRun : List (AsyncLoggingAction 4) :=
  [.start, .countDown, .append ⟨ascii "ab", by decide⟩, .append ⟨ascii "cd", by decide⟩,
    .testRunning, .enter, .truncate, .write, .append ⟨ascii "e", by decide⟩]

theorem lines_kept_rotating : ∃ s : AsyncLogging 4,
    (machine 4).exec (machine 4).init rotatingRun = some s ∧ s.file = [.data (ascii "ab")] ∧
      s.LinesKept [ascii "ab", ascii "cd", ascii "e"] := by
  have hrun : (machine 4).exec (machine 4).init rotatingRun = some _ := rfl
  exact ⟨_, hrun, rfl, lines_kept hrun⟩

end AsyncLogging

end YxAlpha
