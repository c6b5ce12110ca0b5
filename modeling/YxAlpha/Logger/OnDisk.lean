import YxAlpha.Logger.LineOrder
import YxAlpha.Logger.LogFile

/-!
# What a crash leaves of the log

The back end of the logger writes through `output`, a `LogFile` of its own.  `LoggedFile` runs
the two together: a step of the logger makes its calls of `output` (`outputCalls`), and the
lines of the log file are the records of the logger (`Inv.lines`).  So what is in the file at
any moment, as a crash of the program would leave it, is known from both: it is a first part
of the records, all of them unless the back end is writing (`OnDisk`).
-/

namespace YxAlpha

/-- The line that a call appends. -/
def LogFileCall.line? : LogFileCall → Option Bytes
  | append logline => some logline
  | flush | close => none

namespace LogFile

variable {s t : LogFile} {checkEveryN : ℤ}

theorem lines_step {action : LogFileAction} (hstep : s.step action = some t) :
    t.lines = s.lines ++ action.call.line?.toList := by
  cases action with
  | append logline first results flushed =>
      obtain ⟨file, -, hcount⟩ := Option.bind_eq_some_iff.mp hstep
      unfold countLine at hcount
      split at hcount
      · obtain ⟨next, -, rfl⟩ := Option.map_eq_some_iff.mp hcount
        rfl
      · cases hcount
        rfl
  | flush flushed | close flushed =>
      obtain ⟨file, -, rfl⟩ := Option.map_eq_some_iff.mp hstep
      exact (List.append_nil _).symm

theorem lines_exec {calls : List LogFileAction}
    (hrun : (machine checkEveryN).exec s calls = some t) :
    t.lines = s.lines ++ (calls.map LogFileAction.call).filterMap LogFileCall.line? := by
  rw [List.filterMap_map]
  exact Machine.log_eq_filterMap (m := machine checkEveryN) (I := fun _ => True) LogFile.lines
    (fun _ _ _ _ _ => trivial) (fun _ _ _ _ hstep => lines_step hstep) trivial hrun

/-- What has been flushed last is in the file. -/
theorem Durable.flushed {calls : List LogFileAction} (hs : Durable checkEveryN s)
    (hcalls : calls.map LogFileAction.call = [.flush] ∨
      calls.map LogFileAction.call = [.flush, .close])
    (hrun : (machine checkEveryN).exec s calls = some t) :
    t.file.error = false → t.file.written = t.lines.flatten := by
  have hflush : ∀ {u v : LogFile} {action : LogFileAction}, Durable checkEveryN u →
      action.call.line? = none → u.step action = some v →
        v.file.error = false → v.file.written = v.lines.flatten := by
    intro u v action hu hnone hstep
    cases action with
    | append => cases hnone
    | flush flushed | close flushed => exact (hu.flush hstep).2.2
  rcases hcalls with h | h
  · obtain ⟨action, rfl, haction⟩ := List.map_eq_singleton_iff.mp h
    obtain ⟨u, hu, hrest⟩ := Option.bind_eq_some_iff.mp hrun
    cases hrest
    exact hflush hs (by rw [haction]; rfl) hu
  · obtain ⟨action, rest, rfl, haction, hrest⟩ := List.map_eq_cons_iff.mp h
    obtain ⟨last, rfl, hlast⟩ := List.map_eq_singleton_iff.mp hrest
    obtain ⟨u, hu, hrest⟩ := Option.bind_eq_some_iff.mp hrun
    obtain ⟨v, hv, hrest⟩ := Option.bind_eq_some_iff.mp hrest
    cases hrest
    exact hflush (hs.step hu) (by rw [hlast]; rfl) hv

end LogFile

namespace AsyncLogging

variable {N : ℕ} {s t : AsyncLogging N}

/-- The calls of `output` that a step makes. -/
def outputCalls (s : AsyncLogging N) : AsyncLoggingAction N → List LogFileCall
  | .testRunning => if s.running then [] else [.flush, .close]
  | .truncate =>
      if maxToWrite < s.buffersToWrite.length then
        [.append (FileRecord.notice (s.buffersToWrite.length - 2)).bytes]
      else []
  | .write =>
      match s.point with
      | .writing (b :: _) => [.append b.data]
      | _ => []
  | .refill => [.flush]
  | _ => []

/-- The back end is not writing. -/
def Settled (s : AsyncLogging N) : Prop := ∀ rest, s.point ≠ .writing rest

/-- The records that a step adds are the lines that it appends to `output`. -/
theorem file_step {action : AsyncLoggingAction N} (hstep : s.step action = some t) :
    t.file.map FileRecord.bytes = s.file.map FileRecord.bytes ++
      (s.outputCalls action).filterMap LogFileCall.line? := by
  have hsame : ∀ t : AsyncLogging N, t.file = s.file →
      t.file.map FileRecord.bytes = s.file.map FileRecord.bytes ++ [] := by
    intro t ht
    rw [ht, List.append_nil]
  cases step_cases hstep with
  | append line =>
      exact hsame _ (frame_logLine line).1
  | start | startFails | waitLatch | stop | join | joinFails | countDown | wait =>
      exact hsame _ rfl
  | testRunning hpoint =>
      have hnone : (s.outputCalls .testRunning).filterMap LogFileCall.line? = [] := by
        rw [outputCalls]
        split <;> rfl
      rw [hnone]
      exact hsame _ frame_testRunning.1
  | enter | wake => exact hsame _ frame_swap.1
  | truncate hpoint =>
      rw [outputCalls]
      by_cases hlarge : maxToWrite < s.buffersToWrite.length
      · have hwritten : s.buffersToWrite ≠ [] := by
          rintro hnil
          rw [hnil] at hlarge
          exact Nat.not_lt_zero _ hlarge
        rw [AsyncLogging.truncate, if_neg hwritten, if_pos hlarge]
        simp [hlarge, LogFileCall.line?]
      · rw [if_neg hlarge]
        refine hsame _ ?_
        rw [AsyncLogging.truncate, if_neg hlarge]
        split <;> rfl
  | write hpoint =>
      rw [outputCalls, hpoint]
      exact List.map_append
  | refill hpoint => exact hsame _ frame_refill.1

/-- A step behind which the back end is not writing has flushed, or has appended nothing. -/
theorem settled_step {action : AsyncLoggingAction N} (hs : s.Inv)
    (hstep : s.step action = some t) (ht : t.Settled) :
    s.Settled ∧ s.outputCalls action = [] ∨ s.outputCalls action = [.flush] ∨
      s.outputCalls action = [.flush, .close] := by
  cases step_cases hstep with
  | append line =>
      have hpoint : (s.logLine line).point = s.point := (frame_logLine line).2.1
      exact Or.inl ⟨fun rest h => ht rest (hpoint.trans h), rfl⟩
  | start howner hthread =>
      have hpoint := hs.idle.mp howner
      exact Or.inl ⟨fun rest => by simp [hpoint], rfl⟩
  | startFails | waitLatch | stop | join | joinFails => exact Or.inl ⟨ht, rfl⟩
  | countDown hpoint | wait hpoint | enter hpoint | wake hpoint =>
      exact Or.inl ⟨fun rest => by simp [hpoint], rfl⟩
  | testRunning hpoint =>
      by_cases hrunning : s.running
      · exact Or.inl ⟨fun rest => by simp [hpoint], if_pos hrunning⟩
      · exact Or.inr (Or.inr (if_neg hrunning))
  | truncate hpoint =>
      by_cases hnil : s.buffersToWrite = []
      · exact Or.inl ⟨fun rest => by simp [hpoint], by simp [outputCalls, hnil]⟩
      · rw [AsyncLogging.truncate, if_neg hnil] at ht
        exact absurd rfl (ht _)
  | write hpoint => exact absurd rfl (ht _)
  | refill hpoint => exact Or.inr (Or.inl rfl)

end AsyncLogging

/-! ## The logger and its file -/

structure LoggedFile (N : ℕ) where
  logging : AsyncLogging N
  output : LogFile

namespace LoggedFile

variable {N : ℕ} {s t : LoggedFile N}

/-- A step of the logger, with what stdio does in its calls of `output`. -/
def step (s : LoggedFile N) (action : AsyncLoggingAction N × List LogFileAction) :
    Option (LoggedFile N) :=
  if action.2.map LogFileAction.call = s.logging.outputCalls action.1 then
    (s.logging.step action.1).bind fun logging =>
      ((LogFile.machine defaultCheckEveryN).exec s.output action.2).map fun output =>
        ⟨logging, output⟩
  else none

def machine (N : ℕ) : Machine (LoggedFile N) (AsyncLoggingAction N × List LogFileAction) where
  init := ⟨.new, .new defaultCheckEveryN⟩
  step := step

/-- What the file holds of the lines `appended`, of which stdio has reported no error. -/
structure OnDisk (appended : List Bytes) (s : LoggedFile N) : Prop where
  /-- The file is a first part of the records, -/
  records : s.output.file.written <+: s.logging.fileBytes
  /-- which lacks fewer than 1024 of them, the last, -/
  late : ∃ safe late, s.logging.file = safe ++ late ∧ (late.length : ℤ) < defaultCheckEveryN ∧
    safe.flatMap FileRecord.bytes <+: s.output.file.written
  /-- and no more bytes than the buffer of the stream has. -/
  buffered : s.logging.fileBytes.length ≤ s.output.file.written.length + AppendFile.bufferSize
  /-- It lacks none unless the back end is writing. -/
  settled : s.logging.Settled → s.output.file.written = s.logging.fileBytes
  /-- The lines that the file lacks are in the buffers, unless a swap was too large. -/
  lines : (∀ swap ∈ s.logging.swaps, swap.length ≤ AsyncLogging.maxToWrite) →
    s.output.file.written <+: appended.flatten ∧
      (s.logging.Settled → s.logging.everything s.output.file.written = appended.flatten)

structure Inv (s : LoggedFile N) : Prop where
  logging : s.logging.Inv
  line : s.logging.LineInv
  durable : LogFile.Durable defaultCheckEveryN s.output
  /-- The lines of the log file are the records of the logger. -/
  lines : s.output.lines = s.logging.file.map FileRecord.bytes
  settled : s.logging.Settled → s.output.file.error = false →
    s.output.file.written = s.output.lines.flatten

theorem inv_init : (machine N).init.Inv where
  logging := AsyncLogging.inv_new
  line := AsyncLogging.lineInv_new
  durable := LogFile.durable_new defaultCheckEveryN
  lines := rfl
  settled _ _ := rfl

theorem Inv.step {action : AsyncLoggingAction N × List LogFileAction} (hs : s.Inv)
    (hstep : s.step action = some t) : t.Inv := by
  rw [LoggedFile.step, Option.ite_none_right_eq_some] at hstep
  obtain ⟨hcalls, hstep⟩ := hstep
  obtain ⟨logging, hlogging, hstep⟩ := Option.bind_eq_some_iff.mp hstep
  obtain ⟨output, houtput, rfl⟩ := Option.map_eq_some_iff.mp hstep
  have hlines := LogFile.lines_exec houtput
  have hdurable : LogFile.Durable defaultCheckEveryN output :=
    Machine.exec_invariant (fun _ _ _ hs hstep => hs.step hstep) hs.durable houtput
  refine ⟨hs.logging.step hlogging, hs.line.step hs.logging hlogging, hdurable, ?_, ?_⟩
  · rw [hlines, hcalls, hs.lines, AsyncLogging.file_step hlogging]
  · intro hsettled
    rcases AsyncLogging.settled_step hs.logging hlogging hsettled with ⟨hbefore, hnone⟩ | hflush
    · -- `output` is not called
      rw [hnone, List.map_eq_nil_iff] at hcalls
      rw [hcalls] at houtput
      cases houtput
      exact hs.settled hbefore
    · rw [← hcalls] at hflush
      exact hs.durable.flushed hflush houtput

theorem Inv.lines_flatten (hs : s.Inv) : s.output.lines.flatten = s.logging.fileBytes := by
  rw [hs.lines]
  rfl

theorem Inv.written_prefix (hs : s.Inv) (herror : s.output.file.error = false) :
    s.output.file.written <+: s.logging.fileBytes := by
  rw [← hs.lines_flatten, ← hs.durable.safe.whole herror]
  exact (hs.durable.safe.buffered herror).1

theorem Inv.late (hs : s.Inv) (herror : s.output.file.error = false) :
    ∃ safe late, s.logging.file = safe ++ late ∧ (late.length : ℤ) < defaultCheckEveryN ∧
      safe.flatMap FileRecord.bytes <+: s.output.file.written := by
  have hsynced := hs.durable.safe.synced herror
  rw [hs.lines, List.length_map, ← List.map_take] at hsynced
  refine ⟨_, _, (List.take_append_drop (s.logging.file.length - s.output.count) _).symm, ?_,
    hsynced⟩
  have hcount : (s.output.count : ℤ) < defaultCheckEveryN := by
    rcases hs.durable.count with hzero | hlt
    · rw [hzero]
      decide
    · exact hlt
  calc ((s.logging.file.drop (s.logging.file.length - s.output.count)).length : ℤ)
      ≤ s.output.count := by
        rw [List.length_drop]
        omega
    _ < defaultCheckEveryN := hcount

theorem Inv.onDisk (hs : s.Inv) (herror : s.output.file.error = false) :
    s.OnDisk s.logging.appended := by
  have hsettled : s.logging.Settled → s.output.file.written = s.logging.fileBytes := by
    intro hsettled
    rw [hs.settled hsettled herror, hs.lines_flatten]
  refine ⟨hs.written_prefix herror, hs.late herror, ?_, hsettled, ?_⟩
  · rw [← hs.lines_flatten, ← hs.durable.safe.whole herror]
    exact (hs.durable.safe.buffered herror).2
  · intro hsmall
    have hall := hs.line.linesKept.all hsmall
    constructor
    · calc s.output.file.written <+: s.logging.fileBytes := hs.written_prefix herror
        _ <+: s.logging.everything s.logging.fileBytes := by
            simp only [AsyncLogging.everything, List.append_assoc]
            exact List.prefix_append _ _
        _ = s.logging.appended.flatten := hall
    · intro hpoint
      rw [hsettled hpoint]
      exact hall

/-- The logger goes its own way. -/
theorem logging_exec {actions : List (AsyncLoggingAction N × List LogFileAction)}
    (hrun : (machine N).exec s actions = some t) :
    (AsyncLogging.machine N).exec s.logging (actions.map Prod.fst) = some t.logging := by
  induction actions generalizing s with
  | nil =>
      cases hrun
      rfl
  | cons action actions ih =>
      obtain ⟨u, hu, hrest⟩ := Option.bind_eq_some_iff.mp hrun
      obtain ⟨-, hstep⟩ := Option.ite_none_right_eq_some.mp hu
      obtain ⟨logging, hlogging, hstep⟩ := Option.bind_eq_some_iff.mp hstep
      obtain ⟨output, -, rfl⟩ := Option.map_eq_some_iff.mp hstep
      exact Option.bind_eq_some_iff.mpr ⟨logging, hlogging, ih hrest⟩

/-- **What a crash leaves of the log**, at any moment of any run: without an error of stdio, the
file is a first part of the records that lacks only the last, and none unless the back end is
writing. -/
theorem on_disk {actions : List (AsyncLoggingAction N × List LogFileAction)}
    (hrun : (machine N).exec (machine N).init actions = some s)
    (herror : s.output.file.error = false) : s.OnDisk (linesAppended (actions.map Prod.fst)) := by
  have hinv := Machine.exec_invariant (m := machine N) (I := Inv)
    (fun _ _ _ hs hstep => hs.step hstep) inv_init hrun
  have happended : s.logging.appended = linesAppended (actions.map Prod.fst) :=
    AsyncLogging.appended_exec (logging_exec hrun)
  rw [← happended]
  exact hinv.onDisk herror

/-- The first of two buffers has been given to stdio, and is still in its buffer. -/
def halfWritten : List (AsyncLoggingAction 4 × List LogFileAction) :=
  [(.start, []), (.countDown, []), (.append ⟨ascii "gh", by decide⟩, []),
    (.append ⟨ascii "ij", by decide⟩, []), (.testRunning, []), (.enter, []), (.truncate, []),
    (.write, [.append (ascii "gh") ⟨2, []⟩ [] ⟨[], false⟩])]

theorem on_disk_halfWritten : ∃ s : LoggedFile 4,
    (machine 4).exec (machine 4).init halfWritten = some s ∧ s.output.file.written = [] ∧
      s.OnDisk [ascii "gh", ascii "ij"] := by
  have hrun : (machine 4).exec (machine 4).init halfWritten = some _ := rfl
  exact ⟨_, hrun, rfl, on_disk hrun rfl⟩

end LoggedFile

end YxAlpha
