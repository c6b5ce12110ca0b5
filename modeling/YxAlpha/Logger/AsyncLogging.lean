import Mathlib.Data.List.Nodup
import YxAlpha.Library.Machine
import YxAlpha.Logger.FixedBuffer
import YxAlpha.Thread.Thread

/-!
# Asynchronous logging

`AsyncLogging` is `logger/asynclogging.h`, with buffers of any size `N` (the source has
`kBigSize`).  `Append` is one critical section; the back-end thread stands between the
statements of `ThreadFunc` as `BackEndPoint` says, and its critical section is one step too
unless it waits in it.  A wait ends at any time: it may be notified, time out or wake up
for no reason.

A buffer object has a number, so that one can ask who owns it.  A null pointer that is used
and an assertion that fails are both recorded in `failed`.
-/

namespace YxAlpha

/-- A buffer object. -/
structure LogBuffer (N : ℕ) where
  id : ℕ
  buffer : FixedBuffer N

namespace LogBuffer

variable {N : ℕ}

def new (id : ℕ) : LogBuffer N := ⟨id, .new⟩

def reset (b : LogBuffer N) : LogBuffer N := { b with buffer := .new }

def append (b : LogBuffer N) (bytes : Bytes) : LogBuffer N :=
  { b with buffer := b.buffer.append bytes }

def data (b : LogBuffer N) : Bytes := b.buffer.data

end LogBuffer

/-- A line that fits into a buffer. -/
abbrev LogLine (N : ℕ) := { line : Bytes // line.length < N }

/-- What the back end appends to the log file. -/
inductive FileRecord
  /-- The notice that so many buffers have been dropped. -/
  | notice (dropped : ℕ)
  | data (bytes : Bytes)
  deriving DecidableEq, Repr

namespace FileRecord

def bytes : FileRecord → Bytes
  | notice dropped =>
      ascii "Dropped log messages , " ++ decimal dropped ++ ascii " larger buffers\n"
  | data bytes => bytes

end FileRecord

/-- Where the back-end thread is. -/
inductive BackEndPoint (N : ℕ)
  | notStarted
  /-- `latch_.CountDown()` is next. -/
  | started
  /-- The test of `while (running_)` is next. -/
  | testing
  /-- The assertions on the spare buffers have passed; the critical section is next. -/
  | entering
  | waiting
  /-- Out of the critical section. -/
  | swapped
  /-- `buffers_to_write` is being written; `rest` is still to be. -/
  | writing (rest : List (LogBuffer N))
  | finished

/-- Where the owner of the logger is. -/
inductive OwnerPoint
  | idle
  /-- In `latch_.Wait()`. -/
  | starting
  /-- `Start` has returned. -/
  | started
  /-- `Stop` has cleared `running_`; the join is next. -/
  | stopping
  | stopped
  deriving DecidableEq, Repr

structure AsyncLogging (N : ℕ) where
  running : Bool
  thread : Thread
  latch : ℕ
  current : Option (LogBuffer N)
  next : Option (LogBuffer N)
  buffers : List (LogBuffer N)
  newBuffer1 : Option (LogBuffer N)
  newBuffer2 : Option (LogBuffer N)
  buffersToWrite : List (LogBuffer N)
  point : BackEndPoint N
  owner : OwnerPoint
  file : List FileRecord
  /-- The number of buffer objects made so far. -/
  made : ℕ
  failed : Bool
  /-- The lines in the order in which `Append` took the mutex. -/
  appended : List Bytes
  /-- The buffers each iteration has swapped out. -/
  swaps : List (List (LogBuffer N))

inductive AsyncLoggingAction (N : ℕ)
  | append (line : LogLine N)
  | start
  /-- `latch_.Wait()` returns. -/
  | waitLatch
  /-- `Stop`, up to its notification. -/
  | stop
  | join
  | countDown
  | testRunning
  | enter
  | wake
  | truncate
  | write
  | refill
  deriving Repr

/-- The line that the action appends. -/
def AsyncLoggingAction.line? {N : ℕ} : AsyncLoggingAction N → Option Bytes
  | append line => some line.1
  | _ => none

/-- The lines that are appended, in the order of the calls. -/
def linesAppended {N : ℕ} (actions : List (AsyncLoggingAction N)) : List Bytes :=
  actions.filterMap AsyncLoggingAction.line?

namespace AsyncLogging

variable {N : ℕ}

def new : AsyncLogging N where
  running := false
  thread := .new
  latch := 1
  current := some (.new 0)
  next := some (.new 1)
  buffers := []
  newBuffer1 := none
  newBuffer2 := none
  buffersToWrite := []
  point := .notStarted
  owner := .idle
  file := []
  made := 2
  failed := false
  appended := []
  swaps := []

variable (s : AsyncLogging N)

def fail : AsyncLogging N := { s with failed := true }

/-! ## The front end -/

def append (line : Bytes) : AsyncLogging N :=
  match s.current with
  | none => s.fail
  | some current =>
      if line.length < current.buffer.available then
        { s with current := some (current.append line) }
      else
        match s.next with
        | some next =>
            { s with
              buffers := s.buffers ++ [current]
              current := some (next.append line)
              next := none }
        | none =>
            { s with
              buffers := s.buffers ++ [current]
              current := some ((LogBuffer.new s.made).append line)
              made := s.made + 1 }

/-- A call of `Append`, put on record. -/
def logLine (line : LogLine N) : AsyncLogging N :=
  { s.append line with appended := s.appended ++ [line.1] }

/-! ## The back end -/

/-- The two spare buffers are made, and the loop begins. -/
def countDown : AsyncLogging N :=
  { s with
    latch := s.latch - 1
    newBuffer1 := some (.new s.made)
    newBuffer2 := some (.new (s.made + 1))
    made := s.made + 2
    point := .testing }

/-- A spare buffer is there, and empty. -/
def Spare (slot : Option (LogBuffer N)) : Prop :=
  ∃ b, slot = some b ∧ b.buffer.currentLength = 0

instance (slot : Option (LogBuffer N)) : Decidable (Spare slot) :=
  match slot with
  | none => isFalse (by simp [Spare])
  | some b => decidable_of_iff (b.buffer.currentLength = 0) (by simp [Spare])

/-- The test of the loop, with the assertions at the top of its body; the spare buffers are
destroyed with the thread. -/
def testRunning : AsyncLogging N :=
  if s.running then
    if Spare s.newBuffer1 ∧ Spare s.newBuffer2 ∧ s.buffersToWrite = [] then
      { s with point := .entering }
    else s.fail
  else { s with newBuffer1 := none, newBuffer2 := none, point := .finished }

/-- The critical section from the end of the wait on. -/
def swap : AsyncLogging N :=
  match s.current with
  | none => s.fail
  | some current =>
      { s with
        current := s.newBuffer1
        newBuffer1 := none
        next := if s.next.isNone then s.newBuffer2 else s.next
        newBuffer2 := if s.next.isNone then none else s.newBuffer2
        buffers := s.buffersToWrite
        buffersToWrite := s.buffers ++ [current]
        point := .swapped
        swaps := s.swaps ++ [s.buffers ++ [current]] }

/-- More buffers than this are too many. -/
def maxToWrite : ℕ := 25

/-- The buffers that are written of those swapped out. -/
def kept (buffers : List (LogBuffer N)) : List (LogBuffer N) :=
  if maxToWrite < buffers.length then buffers.take 2 else buffers

def truncate : AsyncLogging N :=
  if s.buffersToWrite = [] then s.fail
  else
    { s with
      file :=
        if maxToWrite < s.buffersToWrite.length then
          s.file ++ [.notice (s.buffersToWrite.length - 2)]
        else s.file
      buffersToWrite := kept s.buffersToWrite
      point := .writing (kept s.buffersToWrite) }

/-- A spare buffer that was given away is replaced by the last of `buffers`. -/
def refillSlot (slot : Option (LogBuffer N)) (buffers : List (LogBuffer N)) :
    Option (LogBuffer N × List (LogBuffer N)) :=
  match slot with
  | some b => some (b, buffers)
  | none => buffers.getLast?.map fun b => (b.reset, buffers.dropLast)

/-- The rest of the body of the loop. -/
def refill : AsyncLogging N :=
  match refillSlot s.newBuffer1 (s.buffersToWrite.take 2) with
  | none => s.fail
  | some (first, rest) =>
      match refillSlot s.newBuffer2 rest with
      | none => s.fail
      | some (second, _) =>
          { s with
            newBuffer1 := some first
            newBuffer2 := some second
            buffersToWrite := []
            point := .testing }

/-! ## Steps -/

/-- A step of the back-end thread. -/
def stepBackEnd : AsyncLoggingAction N → Option (AsyncLogging N)
  | .countDown =>
      match s.point with
      | .started => some s.countDown
      | _ => none
  | .testRunning =>
      match s.point with
      | .testing => some s.testRunning
      | _ => none
  | .enter =>
      match s.point with
      | .entering => some (if s.buffers = [] then { s with point := .waiting } else s.swap)
      | _ => none
  | .wake =>
      match s.point with
      | .waiting => some s.swap
      | _ => none
  | .truncate =>
      match s.point with
      | .swapped => some s.truncate
      | _ => none
  | .write =>
      match s.point with
      | .writing (b :: rest) =>
          some { s with file := s.file ++ [.data b.data], point := .writing rest }
      | _ => none
  | .refill =>
      match s.point with
      | .writing [] => some s.refill
      | _ => none
  | _ => none

/-- The steps of the program; after a failed assertion there are none. -/
def step (s : AsyncLogging N) (action : AsyncLoggingAction N) : Option (AsyncLogging N) :=
  if s.failed then none
  else
    match action with
    | .append line => some (s.logLine line)
    | .start =>
        if s.owner = .idle then
          match s.thread.start with
          | some thread =>
              some { s with running := true, thread, point := .started, owner := .starting }
          | none => some s.fail
        else none
    | .waitLatch =>
        if s.owner = .starting ∧ s.latch = 0 then some { s with owner := .started } else none
    | .stop =>
        if s.owner = .started then some { s with running := false, owner := .stopping } else none
    | .join =>
        if s.owner = .stopping then
          match s.thread.join with
          | some thread =>
              match s.point with
              | .finished => some { s with thread, owner := .stopped }
              | _ => none
          | none => some s.fail
        else none
    | _ => s.stepBackEnd action

def machine (N : ℕ) : Machine (AsyncLogging N) (AsyncLoggingAction N) where
  init := new
  step := step

/-! ## What a step does -/

variable {s t : AsyncLogging N}

/-- What a step does, by its action and the point of the thread that takes it. -/
inductive Move (s : AsyncLogging N) : AsyncLoggingAction N → AsyncLogging N → Prop
  | append (line : LogLine N) : Move s (.append line) (s.logLine line)
  | start {thread : Thread} (howner : s.owner = .idle) (hthread : s.thread.start = some thread) :
      Move s .start { s with running := true, thread, point := .started, owner := .starting }
  | startFails (howner : s.owner = .idle) (hthread : s.thread.start = none) : Move s .start s.fail
  | waitLatch (howner : s.owner = .starting) : Move s .waitLatch { s with owner := .started }
  | stop (howner : s.owner = .started) :
      Move s .stop { s with running := false, owner := .stopping }
  | join {thread : Thread} (howner : s.owner = .stopping) (hthread : s.thread.join = some thread)
      (hpoint : s.point = .finished) : Move s .join { s with thread, owner := .stopped }
  | joinFails (howner : s.owner = .stopping) (hthread : s.thread.join = none) : Move s .join s.fail
  | countDown (hpoint : s.point = .started) : Move s .countDown s.countDown
  | testRunning (hpoint : s.point = .testing) : Move s .testRunning s.testRunning
  | wait (hpoint : s.point = .entering) : Move s .enter { s with point := .waiting }
  | enter (hpoint : s.point = .entering) : Move s .enter s.swap
  | wake (hpoint : s.point = .waiting) : Move s .wake s.swap
  | truncate (hpoint : s.point = .swapped) : Move s .truncate s.truncate
  | write {b : LogBuffer N} {rest : List (LogBuffer N)} (hpoint : s.point = .writing (b :: rest)) :
      Move s .write { s with file := s.file ++ [.data b.data], point := .writing rest }
  | refill (hpoint : s.point = .writing []) : Move s .refill s.refill

theorem stepBackEnd_cases {action : AsyncLoggingAction N} (h : s.stepBackEnd action = some t) :
    s.Move action t := by
  cases action with
  | countDown | testRunning | wake | truncate | write | refill =>
      simp only [stepBackEnd] at h
      split at h <;> cases h
      first
      | exact .countDown ‹_›
      | exact .testRunning ‹_›
      | exact .wake ‹_›
      | exact .truncate ‹_›
      | exact .write ‹_›
      | exact .refill ‹_›
  | enter =>
      simp only [stepBackEnd] at h
      split at h <;> cases h
      split
      · exact .wait ‹_›
      · exact .enter ‹_›
  | _ => cases h

theorem step_cases {action : AsyncLoggingAction N} (h : s.step action = some t) :
    s.Move action t := by
  unfold step at h
  split at h
  · cases h
  · cases action with
    | append line =>
        cases h
        exact .append line
    | start =>
        dsimp only at h
        split at h
        · split at h <;> cases h
          · exact .start ‹_› ‹_›
          · exact .startFails ‹_› ‹_›
        · cases h
    | waitLatch | stop =>
        dsimp only at h
        split at h <;> cases h
        first
        | exact .waitLatch (And.left ‹_›)
        | exact .stop ‹_›
    | join =>
        dsimp only at h
        split at h
        · split at h
          · split at h <;> cases h
            exact .join ‹_› ‹_› ‹_›
          · cases h
            exact .joinFails ‹_› ‹_›
        · cases h
    | _ => exact stepBackEnd_cases h

/-! ## What a step leaves alone -/

/-- `Append` works on the buffers of the front end. -/
theorem frame_logLine (line : LogLine N) :
    (s.logLine line).file = s.file ∧ (s.logLine line).point = s.point ∧
      (s.logLine line).latch = s.latch ∧ (s.logLine line).owner = s.owner := by
  unfold logLine append
  split
  · exact ⟨rfl, rfl, rfl, rfl⟩
  · dsimp only
    split
    · exact ⟨rfl, rfl, rfl, rfl⟩
    · split <;> exact ⟨rfl, rfl, rfl, rfl⟩

theorem frame_testRunning : s.testRunning.file = s.file ∧ s.testRunning.appended = s.appended := by
  unfold testRunning
  split
  · split <;> exact ⟨rfl, rfl⟩
  · exact ⟨rfl, rfl⟩

theorem frame_swap : s.swap.file = s.file ∧ s.swap.appended = s.appended := by
  unfold swap
  split <;> exact ⟨rfl, rfl⟩

theorem appended_truncate : s.truncate.appended = s.appended := by
  unfold truncate
  split <;> rfl

theorem frame_refill : s.refill.file = s.file ∧ s.refill.appended = s.appended := by
  unfold refill
  split
  · exact ⟨rfl, rfl⟩
  · split <;> exact ⟨rfl, rfl⟩

end AsyncLogging

end YxAlpha
