import Mathlib.Data.List.Nodup
import Mathlib.Data.List.Perm.Basic
import YxAlpha.Library.Machine
import YxAlpha.Net.TcpConnection
import YxAlpha.Thread.CurrentThread

/-!
# Shutting down while other threads send

One connection, its loop, and threads that call `Send(const std::string &)` and,
once, `ShutDown`.  A call goes on as `is_same_thread` takes its `Caller`; none but the
loop thread is taken for that.  Every call is cut where another thread can come in
between: at its check of `state_`, and at the point where it runs or queues its task.
While the loop thread is inside a call it does nothing else.

A task carries the length that `Send` captured, and the bytes it reads are part
of the action that runs it: whether they are still the bytes of the call is
another question (`CrossThreadSend`).  `accepted`, `before` and `executed` only
record what has happened.

`Graceful` says that once the write side is shut down, every call of `Send`
accepted before `ShutDown` has been written to the kernel.  `ShutDownInLoop` looks
at the write interest only, so it cannot know of calls whose task has not run.
`graceful_iff` makes that exact: a run is graceful exactly when, at each step that
shuts the write side down, no call accepted before `ShutDown` is waiting.  For the
calls that do not wait the invariant does the work: their bytes are in the
stream, and the stream has left when write interest is gone.
-/

namespace YxAlpha

/-- An accepted call of `Send`. -/
structure SendCall where
  id : ℕ
  len : ℕ
  deriving DecidableEq, Repr

/-- How far the call of `ShutDown` has come. -/
inductive ShutDownCall
  | uncalled
  | checked (caller : Caller)
  | marked (caller : Caller)
  | returned
  deriving DecidableEq, Repr

inductive ConnTask
  | sendInLoop (call : SendCall)
  | shutDownInLoop
  deriving DecidableEq, Repr

def ConnTask.call? : ConnTask → Option SendCall
  | .sendInLoop call => some call
  | .shutDownInLoop => none

@[simp] theorem ConnTask.call?_sendInLoop (call : SendCall) :
    (ConnTask.sendInLoop call).call? = some call := rfl

@[simp] theorem ConnTask.call?_shutDownInLoop : ConnTask.shutDownInLoop.call? = none := rfl

/-- A connection that several threads use. -/
structure SharedConnection where
  conn : TcpConnection
  pending : List ConnTask
  batch : List ConnTask
  callingPendingFuncs : Bool
  /-- The calls of other threads between their check and their `push_back`. -/
  inFlight : List SendCall
  /-- The call of the loop thread between its check and `SendInLoop`. -/
  inLoop : Option SendCall
  shutDownCall : ShutDownCall
  accepted : List SendCall
  before : List SendCall
  executed : List SendCall

inductive ConnAction
  | established
  | checkSend (caller : Caller) (len : ℕ)
  | queueSend (call : SendCall)
  | runSend (r : WriteResult) (bytes : Bytes)
  | checkShutDown (caller : Caller)
  | markShutDown
  | finishShutDown
  | swapPendingFuncs
  | runTask (r : WriteResult) (bytes : Bytes)
  | finishPendingFuncs
  | handleWrite (r : WriteResult)

namespace SharedConnection

def init (highWaterMark : ℕ) (hasWriteComplete hasHighWaterMark : Bool) : SharedConnection where
  conn := .new highWaterMark hasWriteComplete hasHighWaterMark
  pending := []
  batch := []
  callingPendingFuncs := false
  inFlight := []
  inLoop := none
  shutDownCall := .uncalled
  accepted := []
  before := []
  executed := []

/-- The loop thread is not inside a call. -/
def LoopFree (s : SharedConnection) : Prop :=
  s.inLoop = none ∧ s.shutDownCall ≠ .checked .loop ∧ s.shutDownCall ≠ .marked .loop

instance (s : SharedConnection) : Decidable s.LoopFree := by
  unfold LoopFree; infer_instance

/-- `SendInLoop` for a call whose data reads as `bytes`. -/
def runCall (s : SharedConnection) (call : SendCall) (r : WriteResult) (bytes : Bytes) :
    Option SharedConnection :=
  if bytes.length = call.len ∧ r.Fits bytes.length then
    some { s with conn := s.conn.sendInLoop r bytes, executed := s.executed ++ [call] }
  else none

def step (s : SharedConnection) : ConnAction → Option SharedConnection
  | .established => s.conn.setConnectionEstablished.map fun conn => { s with conn }
  | .checkSend .foreign len =>
      if s.conn.state = .connected then
        let call := ⟨s.accepted.length, len⟩
        some { s with accepted := s.accepted ++ [call], inFlight := s.inFlight ++ [call] }
      else some s
  | .checkSend .loop len =>
      if s.LoopFree then
        if s.conn.state = .connected then
          let call := ⟨s.accepted.length, len⟩
          some { s with accepted := s.accepted ++ [call], inLoop := some call }
        else some s
      else none
  | .queueSend call =>
      if call ∈ s.inFlight then
        some { s with
          inFlight := s.inFlight.erase call
          pending := s.pending ++ [.sendInLoop call] }
      else none
  | .runSend r bytes =>
      match s.inLoop with
      | some call => { s with inLoop := none }.runCall call r bytes
      | none => none
  | .checkShutDown caller =>
      if s.shutDownCall = .uncalled ∧ (caller = .loop → s.LoopFree) then
        some { s with
          before := s.accepted
          shutDownCall := if s.conn.state = .connected then .checked caller else .returned }
      else none
  | .markShutDown =>
      match s.shutDownCall with
      | .checked caller =>
          some { s with
            conn := { s.conn with state := .disconnecting }
            shutDownCall := .marked caller }
      | _ => none
  | .finishShutDown =>
      match s.shutDownCall with
      | .marked .loop =>
          some { s with conn := s.conn.shutDownInLoop, shutDownCall := .returned }
      | .marked .foreign =>
          some { s with pending := s.pending ++ [.shutDownInLoop], shutDownCall := .returned }
      | _ => none
  | .swapPendingFuncs =>
      if s.LoopFree ∧ s.callingPendingFuncs = false then
        some { s with batch := s.pending, pending := [], callingPendingFuncs := true }
      else none
  | .runTask r bytes =>
      if s.LoopFree then
        match s.batch with
        | .sendInLoop call :: batch => { s with batch }.runCall call r bytes
        | .shutDownInLoop :: batch => some { s with batch, conn := s.conn.shutDownInLoop }
        | [] => none
      else none
  | .finishPendingFuncs =>
      if s.LoopFree ∧ s.callingPendingFuncs = true ∧ s.batch = [] then
        some { s with callingPendingFuncs := false }
      else none
  | .handleWrite r =>
      if s.LoopFree ∧ s.callingPendingFuncs = false ∧ r.Fits s.conn.outputBuf.payloadSize then
        (s.conn.handleWrite r).map fun conn => { s with conn }
      else none

def machine (highWaterMark : ℕ) (hasWriteComplete hasHighWaterMark : Bool) :
    Machine SharedConnection ConnAction where
  init := init highWaterMark hasWriteComplete hasHighWaterMark
  step := step

/-! ## What is asked of a run -/

/-- The number of bytes of the calls. -/
def total (calls : List SendCall) : ℕ := (calls.map SendCall.len).sum

/-- All bytes of the call have been written to the kernel: it has none, or
`SendInLoop` has run for it and the kernel has accepted the stream up to its end. -/
def Delivered (s : SharedConnection) (call : SendCall) : Prop :=
  call.len = 0 ∨ ∃ earlier later, s.executed = earlier ++ call :: later ∧
    total earlier + call.len ≤ s.conn.socket.accepted.length

/-- The write side is shut down only after all bytes of every call of `Send`
accepted before `ShutDown` have been written to the kernel. -/
def Graceful (s : SharedConnection) : Prop :=
  0 < s.conn.socket.shutDownWrites → ∀ call ∈ s.before, s.Delivered call

/-- The accepted calls for which `SendInLoop` has not run. -/
def waiting (s : SharedConnection) : List SendCall :=
  s.inFlight ++ s.inLoop.toList ++ (s.batch ++ s.pending).filterMap ConnTask.call?

/-- The action shuts the write side down. -/
def ShutsDown (s : SharedConnection) : ConnAction → Prop
  | .finishShutDown => s.shutDownCall = .marked .loop ∧ s.conn.careWrite = false
  | .runTask _ _ => s.batch.head? = some .shutDownInLoop ∧ s.conn.careWrite = false
  | .handleWrite r => s.conn.Drains r
  | _ => False

/-- An action that shuts the write side down comes when no call accepted before
`ShutDown` waits with bytes to send. -/
def NoneWaiting (s : SharedConnection) (action : ConnAction) : Prop :=
  s.ShutsDown action → ∀ call ∈ s.before, call ∈ s.waiting → call.len = 0

/-! ## What a step can do -/

/-- The state after `SendInLoop` for `call`. -/
def sent (s : SharedConnection) (call : SendCall) (r : WriteResult) (bytes : Bytes) :
    SharedConnection :=
  { s with conn := s.conn.sendInLoop r bytes, executed := s.executed ++ [call] }

/-- The steps, one constructor for each way a step can be taken. -/
inductive Steps (s : SharedConnection) : ConnAction → SharedConnection → Prop
  | established (conn : TcpConnection) (hconn : s.conn.setConnectionEstablished = some conn) :
      Steps s .established { s with conn }
  | ignored (caller : Caller) (len : ℕ) : Steps s (.checkSend caller len) s
  | acceptedForeign (len : ℕ) :
      Steps s (.checkSend .foreign len)
        { s with
          accepted := s.accepted ++ [⟨s.accepted.length, len⟩]
          inFlight := s.inFlight ++ [⟨s.accepted.length, len⟩] }
  | acceptedLoop (len : ℕ) (hfree : s.inLoop = none) :
      Steps s (.checkSend .loop len)
        { s with
          accepted := s.accepted ++ [⟨s.accepted.length, len⟩]
          inLoop := some ⟨s.accepted.length, len⟩ }
  | queued (call : SendCall) (hcall : call ∈ s.inFlight) :
      Steps s (.queueSend call)
        { s with
          inFlight := s.inFlight.erase call
          pending := s.pending ++ [.sendInLoop call] }
  | ranSend (call : SendCall) (r : WriteResult) (bytes : Bytes) (hcall : s.inLoop = some call)
      (hlength : bytes.length = call.len) (hr : r.Fits bytes.length) :
      Steps s (.runSend r bytes) (sent { s with inLoop := none } call r bytes)
  | checked (caller : Caller) (shutDownCall : ShutDownCall) (huncalled : s.shutDownCall = .uncalled)
      (hcalled : shutDownCall ≠ .uncalled) :
      Steps s (.checkShutDown caller) { s with before := s.accepted, shutDownCall }
  | marked (caller : Caller) (hchecked : s.shutDownCall = .checked caller) :
      Steps s .markShutDown
        { s with
          conn := { s.conn with state := .disconnecting }
          shutDownCall := .marked caller }
  | finishedLoop (hmarked : s.shutDownCall = .marked .loop) :
      Steps s .finishShutDown
        { s with conn := s.conn.shutDownInLoop, shutDownCall := .returned }
  | finishedForeign (hmarked : s.shutDownCall = .marked .foreign) :
      Steps s .finishShutDown
        { s with pending := s.pending ++ [.shutDownInLoop], shutDownCall := .returned }
  | swapped (hbatch : s.callingPendingFuncs = false) :
      Steps s .swapPendingFuncs
        { s with batch := s.pending, pending := [], callingPendingFuncs := true }
  | ranTask (call : SendCall) (batch : List ConnTask) (r : WriteResult) (bytes : Bytes)
      (hbatch : s.batch = .sendInLoop call :: batch) (hlength : bytes.length = call.len)
      (hr : r.Fits bytes.length) :
      Steps s (.runTask r bytes) (sent { s with batch } call r bytes)
  | ranShutDown (batch : List ConnTask) (r : WriteResult) (bytes : Bytes)
      (hbatch : s.batch = .shutDownInLoop :: batch) :
      Steps s (.runTask r bytes) { s with batch, conn := s.conn.shutDownInLoop }
  | finishedPending (hbatch : s.batch = []) :
      Steps s .finishPendingFuncs { s with callingPendingFuncs := false }
  | wrote (r : WriteResult) (conn : TcpConnection) (hr : r.Fits s.conn.outputBuf.payloadSize)
      (hwrite : s.conn.handleWrite r = some conn) :
      Steps s (.handleWrite r) { s with conn }

theorem runCall_eq_some {s t : SharedConnection} {call : SendCall} {r : WriteResult} {bytes : Bytes}
    (h : s.runCall call r bytes = some t) :
    bytes.length = call.len ∧ r.Fits bytes.length ∧ t = s.sent call r bytes := by
  unfold runCall at h
  split at h
  · rename_i hguard
    cases h
    exact ⟨hguard.1, hguard.2, rfl⟩
  · cases h

theorem steps_of_step {s t : SharedConnection} {action : ConnAction}
    (h : s.step action = some t) : s.Steps action t := by
  cases action with
  | established =>
      obtain ⟨conn, hconn, rfl⟩ := Option.map_eq_some_iff.mp h
      exact .established conn hconn
  | checkSend caller len =>
      cases caller with
      | foreign =>
          simp only [step] at h
          split at h <;> cases h
          · exact .acceptedForeign len
          · exact .ignored .foreign len
      | loop =>
          simp only [step] at h
          split at h
          · rename_i hfree
            split at h <;> cases h
            · exact .acceptedLoop len hfree.1
            · exact .ignored .loop len
          · cases h
  | queueSend call =>
      simp only [step] at h
      split at h <;> cases h
      exact .queued call ‹_›
  | runSend r bytes =>
      simp only [step] at h
      split at h
      · obtain ⟨hlength, hr, rfl⟩ := runCall_eq_some h
        exact .ranSend _ r bytes ‹_› hlength hr
      · cases h
  | checkShutDown caller =>
      simp only [step] at h
      split at h <;> cases h
      rename_i hguard
      exact .checked caller _ hguard.1 (by split <;> simp)
  | markShutDown =>
      simp only [step] at h
      split at h <;> cases h
      exact .marked _ ‹_›
  | finishShutDown =>
      simp only [step] at h
      split at h <;> cases h
      · exact .finishedLoop ‹_›
      · exact .finishedForeign ‹_›
  | swapPendingFuncs =>
      simp only [step] at h
      split at h <;> cases h
      rename_i hguard
      exact .swapped hguard.2
  | runTask r bytes =>
      simp only [step] at h
      split at h
      · split at h
        · obtain ⟨hlength, hr, rfl⟩ := runCall_eq_some h
          exact .ranTask _ _ r bytes ‹_› hlength hr
        · cases h
          exact .ranShutDown _ r bytes ‹_›
        · cases h
      · cases h
  | finishPendingFuncs =>
      simp only [step] at h
      split at h <;> cases h
      rename_i hguard
      exact .finishedPending hguard.2.2
  | handleWrite r =>
      simp only [step] at h
      split at h
      · rename_i hguard
        obtain ⟨conn, hwrite, rfl⟩ := Option.map_eq_some_iff.mp h
        exact .wrote r conn hguard.2.2 hwrite
      · cases h

/-! ## The invariant -/

structure Inv (s : SharedConnection) : Prop where
  flowing : s.conn.Flowing
  /-- The stream consists of the calls that have run. -/
  stream : s.conn.stream.length = total s.executed
  /-- Every accepted call has run or waits, and only once. -/
  calls : (s.executed ++ s.waiting).Perm s.accepted
  ids : s.accepted.map SendCall.id = List.range s.accepted.length
  before : s.before ⊆ s.accepted
  idle : s.callingPendingFuncs = false → s.batch = []
  /-- Nothing shuts the write side down before `ShutDown` is called. -/
  uncalled : s.shutDownCall = .uncalled →
    s.conn.socket.shutDownWrites = 0 ∧ s.conn.state ≠ .disconnecting ∧
      ConnTask.shutDownInLoop ∉ s.batch ++ s.pending

theorem total_append (first second : List SendCall) :
    total (first ++ second) = total first + total second := by
  simp [total]

namespace Inv

variable {s t : SharedConnection} {action : ConnAction}

theorem init (highWaterMark : ℕ) (hasWriteComplete hasHighWaterMark : Bool) :
    (SharedConnection.init highWaterMark hasWriteComplete hasHighWaterMark).Inv where
  flowing := by simp [SharedConnection.init, TcpConnection.new, TcpConnection.Flowing]
  stream := by
    simp [SharedConnection.init, TcpConnection.new, TcpConnection.stream, Socket.new, total]
  calls := by simp [SharedConnection.init, waiting]
  ids := rfl
  before := by simp [SharedConnection.init]
  idle _ := rfl
  uncalled _ := by simp [SharedConnection.init, TcpConnection.new, Socket.new]

theorem nodup (hs : s.Inv) : s.accepted.Nodup := by
  apply List.Nodup.of_map SendCall.id
  rw [hs.ids]
  exact List.nodup_range

/-- A call that has run does not wait. -/
theorem not_waiting (hs : s.Inv) {call : SendCall} (hexecuted : call ∈ s.executed) :
    call ∉ s.waiting := by
  have hnodup := hs.calls.nodup_iff.mpr hs.nodup
  exact List.disjoint_of_nodup_append hnodup hexecuted

/-- A new call is accepted, and waits from then on. -/
theorem perm_accept (hs : s.Inv) {call : SendCall} {waits : List SendCall}
    (hwaits : waits.Perm (call :: s.waiting)) :
    (s.executed ++ waits).Perm (s.accepted ++ [call]) := by
  calc List.Perm (s.executed ++ waits) (s.executed ++ call :: s.waiting) := hwaits.append_left _
    List.Perm _ (call :: (s.executed ++ s.waiting)) := List.perm_middle
    List.Perm _ (call :: s.accepted) := hs.calls.cons _
    List.Perm _ (s.accepted ++ [call]) := (List.perm_append_singleton _ _).symm

/-- A waiting call runs. -/
theorem perm_run (hs : s.Inv) {call : SendCall} {waits : List SendCall}
    (hwaits : s.waiting.Perm (call :: waits)) :
    ((s.executed ++ [call]) ++ waits).Perm s.accepted := by
  rw [List.append_assoc]
  calc List.Perm (s.executed ++ call :: waits) (s.executed ++ s.waiting) :=
        hwaits.symm.append_left _
    List.Perm _ s.accepted := hs.calls

theorem map_id_accept (hs : s.Inv) (len : ℕ) :
    (s.accepted ++ [(⟨s.accepted.length, len⟩ : SendCall)]).map SendCall.id =
      List.range (s.accepted ++ [(⟨s.accepted.length, len⟩ : SendCall)]).length := by
  rw [List.map_append, hs.ids, List.length_append, List.length_singleton, List.range_succ]
  rfl

theorem length_stream_run (hs : s.Inv) {call : SendCall} {r : WriteResult} {bytes : Bytes}
    (hlength : bytes.length = call.len) (hr : r.Fits bytes.length) :
    (s.conn.sendInLoop r bytes).stream.length = total (s.executed ++ [call]) := by
  rw [TcpConnection.stream_sendInLoop hr, List.length_append, hs.stream, total_append, hlength]
  simp [total]

theorem steps (hs : s.Inv) (hstep : s.Steps action t) : t.Inv := by
  cases hstep with
  | established conn hconn =>
      unfold TcpConnection.setConnectionEstablished at hconn
      split at hconn <;> cases hconn
      exact { hs with uncalled := fun h => ⟨(hs.uncalled h).1, by simp, (hs.uncalled h).2.2⟩ }
  | ignored => exact hs
  | acceptedForeign len =>
      refine { hs with
        calls := hs.perm_accept ?_
        ids := hs.map_id_accept len
        before := fun call hcall => List.mem_append_left _ (hs.before hcall) }
      simp only [waiting, List.append_assoc]
      exact List.perm_middle
  | acceptedLoop len hfree =>
      refine { hs with
        calls := hs.perm_accept ?_
        ids := hs.map_id_accept len
        before := fun call hcall => List.mem_append_left _ (hs.before hcall) }
      simp only [waiting, hfree, List.append_assoc]
      exact List.perm_middle
  | queued call hcall =>
      refine { hs with calls := ?_, uncalled := fun h => by simpa using hs.uncalled h }
      refine (List.Perm.append_left _ ?_).trans hs.calls
      have hmoved := List.perm_cons_erase hcall
      apply List.perm_iff_count.mpr
      intro x
      have hcount := hmoved.count_eq x
      simp only [waiting, List.filterMap_append, List.filterMap_cons, ConnTask.call?_sendInLoop,
        List.filterMap_nil, List.count_append, List.count_cons, List.count_nil] at hcount ⊢
      omega
  | ranSend call r bytes hcall hlength hr =>
      refine { hs with
        flowing := hs.flowing.sendInLoop hr
        stream := hs.length_stream_run hlength hr
        calls := hs.perm_run ?_
        uncalled := ?_ }
      · simp only [waiting, hcall, List.append_assoc]
        exact List.perm_middle
      · intro h
        simp only [sent, TcpConnection.shutDownWrites_sendInLoop hr,
          TcpConnection.state_sendInLoop hr]
        exact hs.uncalled h
  | checked caller shutDownCall huncalled hcalled =>
      exact { hs with before := List.Subset.refl _, uncalled := fun h => absurd h hcalled }
  | marked caller hchecked => exact { hs with uncalled := by simp }
  | finishedLoop hmarked =>
      exact { hs with
        flowing := hs.flowing.shutDownInLoop
        stream := by simpa using hs.stream
        uncalled := by simp }
  | finishedForeign hmarked =>
      refine { hs with calls := ?_, uncalled := by simp }
      simpa [waiting, List.filterMap_cons] using hs.calls
  | swapped hbatch =>
      refine { hs with calls := ?_, idle := by simp, uncalled := ?_ }
      · simpa [waiting, hs.idle hbatch] using hs.calls
      · intro h
        simpa [hs.idle hbatch] using hs.uncalled h
  | ranTask call batch r bytes hbatch hlength hr =>
      refine { hs with
        flowing := hs.flowing.sendInLoop hr
        stream := hs.length_stream_run hlength hr
        calls := hs.perm_run ?_
        idle := ?_
        uncalled := ?_ }
      · simp only [waiting, hbatch, List.cons_append, List.filterMap_cons,
          ConnTask.call?_sendInLoop]
        exact List.perm_middle
      · intro h
        rw [hs.idle h] at hbatch
        cases hbatch
      · intro h
        simp only [sent, TcpConnection.shutDownWrites_sendInLoop hr,
          TcpConnection.state_sendInLoop hr]
        simpa [hbatch] using hs.uncalled h
  | ranShutDown batch r bytes hbatch =>
      refine { hs with
        flowing := hs.flowing.shutDownInLoop
        stream := by simpa using hs.stream
        calls := by simpa [waiting, hbatch, List.filterMap_cons] using hs.calls
        idle := ?_
        uncalled := ?_ }
      · intro h
        rw [hs.idle h] at hbatch
        cases hbatch
      · intro h
        exact absurd (by simp [hbatch]) (hs.uncalled h).2.2
  | finishedPending hbatch => exact { hs with idle := fun _ => hbatch }
  | wrote r conn hr hwrite =>
      refine { hs with
        flowing := TcpConnection.Flowing.handleWrite hr hwrite hs.flowing
        stream := by rw [TcpConnection.stream_handleWrite hr hwrite]; exact hs.stream
        uncalled := ?_ }
      intro h
      obtain ⟨hcount, hstate, htasks⟩ := hs.uncalled h
      rw [TcpConnection.state_handleWrite hr hwrite]
      rcases TcpConnection.shutDownWrites_handleWrite hr hwrite with ⟨hdrains, -⟩ | ⟨-, hsame, -⟩
      · exact absurd hdrains.2.1 hstate
      · exact ⟨hsame.trans hcount, hstate, htasks⟩

end Inv

/-! ## When the write side is shut down -/

variable {s t : SharedConnection} {action : ConnAction}

theorem shutDownInLoop_of_careWrite {c : TcpConnection} (h : c.careWrite = true) :
    c.shutDownInLoop = c := if_pos h

theorem payload_of_flowing {c : TcpConnection} (hflow : c.Flowing) (h : c.careWrite = false) :
    c.outputBuf.payload = [] := by
  by_contra hwaiting
  rw [hflow.mpr hwaiting] at h
  cases h

/-- When the write side is shut down, the stream has left. -/
theorem steps_of_shutsDown (hs : s.Inv) (hstep : s.Steps action t) (hdown : s.ShutsDown action) :
    0 < t.conn.socket.shutDownWrites ∧ t.conn.outputBuf.payload = [] ∧ t.executed = s.executed ∧
      t.before = s.before := by
  cases hstep with
  | finishedLoop hmarked =>
      refine ⟨?_, ?_, rfl, rfl⟩
      · simp [TcpConnection.shutDownInLoop, hdown.2, Socket.shutDownWrite]
      · simpa [TcpConnection.shutDownInLoop, hdown.2] using payload_of_flowing hs.flowing hdown.2
  | finishedForeign hmarked =>
      rw [hdown.1] at hmarked
      cases hmarked
  | ranTask call batch r bytes hbatch hlength hr => simp [ShutsDown, hbatch] at hdown
  | ranShutDown batch r bytes hbatch =>
      refine ⟨?_, ?_, rfl, rfl⟩
      · simp [TcpConnection.shutDownInLoop, hdown.2, Socket.shutDownWrite]
      · simpa [TcpConnection.shutDownInLoop, hdown.2] using payload_of_flowing hs.flowing hdown.2
  | wrote r conn hr hwrite =>
      rcases TcpConnection.shutDownWrites_handleWrite hr hwrite with
        ⟨-, hempty, hcount⟩ | ⟨hdrains, -⟩
      · exact ⟨by rw [hcount]; omega, hempty, rfl, rfl⟩
      · exact absurd hdown hdrains
  | _ => cases hdown

/-- Otherwise nothing is taken back. -/
theorem steps_of_not_shutsDown (hstep : s.Steps action t) (hdown : ¬ s.ShutsDown action) :
    t.conn.socket.shutDownWrites = s.conn.socket.shutDownWrites ∧ s.executed <+: t.executed ∧
      s.conn.socket.accepted <+: t.conn.socket.accepted ∧
      (t.before = s.before ∨ s.shutDownCall = .uncalled) := by
  cases hstep with
  | established conn hconn =>
      unfold TcpConnection.setConnectionEstablished at hconn
      split at hconn <;> cases hconn
      exact ⟨rfl, List.prefix_rfl, List.prefix_rfl, Or.inl rfl⟩
  | ranSend call r bytes hcall hlength hr =>
      exact ⟨TcpConnection.shutDownWrites_sendInLoop hr, List.prefix_append _ _,
        TcpConnection.accepted_sendInLoop_prefix hr, Or.inl rfl⟩
  | checked caller shutDownCall huncalled hcalled =>
      exact ⟨rfl, List.prefix_rfl, List.prefix_rfl, Or.inr huncalled⟩
  | finishedLoop hmarked =>
      have hcare : s.conn.careWrite = true := by
        by_contra hcare
        exact hdown ⟨hmarked, by simpa using hcare⟩
      rw [shutDownInLoop_of_careWrite hcare]
      exact ⟨rfl, List.prefix_rfl, List.prefix_rfl, Or.inl rfl⟩
  | ranTask call batch r bytes hbatch hlength hr =>
      exact ⟨TcpConnection.shutDownWrites_sendInLoop hr, List.prefix_append _ _,
        TcpConnection.accepted_sendInLoop_prefix hr, Or.inl rfl⟩
  | ranShutDown batch r bytes hbatch =>
      have hcare : s.conn.careWrite = true := by
        by_contra hcare
        exact hdown ⟨by simp [hbatch], by simpa using hcare⟩
      rw [shutDownInLoop_of_careWrite hcare]
      exact ⟨rfl, List.prefix_rfl, List.prefix_rfl, Or.inl rfl⟩
  | wrote r conn hr hwrite =>
      rcases TcpConnection.shutDownWrites_handleWrite hr hwrite with ⟨hdrains, -⟩ | ⟨-, hsame, -⟩
      · exact absurd hdrains hdown
      · exact ⟨hsame, List.prefix_rfl, TcpConnection.accepted_handleWrite_prefix hr hwrite,
          Or.inl rfl⟩
  | _ => exact ⟨rfl, List.prefix_rfl, List.prefix_rfl, Or.inl rfl⟩

/-! ## Delivery -/

theorem Delivered.mono {call : SendCall} (h : s.Delivered call)
    (hexecuted : s.executed <+: t.executed)
    (haccepted : s.conn.socket.accepted <+: t.conn.socket.accepted) : t.Delivered call := by
  rcases h with hzero | ⟨earlier, later, hcall, hlength⟩
  · exact Or.inl hzero
  · obtain ⟨more, hmore⟩ := hexecuted
    refine Or.inr ⟨earlier, later ++ more, ?_, hlength.trans haccepted.length_le⟩
    rw [← hmore, hcall, List.append_assoc]
    rfl

/-- When the stream has left, a call is delivered unless it has bytes to send and
has not run. -/
theorem delivered_iff_of_drained (ht : t.Inv) (hempty : t.conn.outputBuf.payload = [])
    (call : SendCall) : t.Delivered call ↔ call.len = 0 ∨ call ∈ t.executed := by
  have hlength : t.conn.socket.accepted.length = total t.executed := by
    rw [← ht.stream, TcpConnection.stream, hempty, List.append_nil]
  refine or_congr_right ⟨?_, ?_⟩
  · rintro ⟨earlier, later, hcall, -⟩
    simp [hcall]
  · intro hcall
    obtain ⟨earlier, later, hsplit⟩ := List.append_of_mem hcall
    refine ⟨earlier, later, hsplit, ?_⟩
    rw [hlength, hsplit, total_append]
    simp [total]

theorem graceful_step_iff (hs : s.Inv) (hgraceful : s.Graceful) (hstep : s.Steps action t) :
    t.Graceful ↔ s.NoneWaiting action := by
  by_cases hdown : s.ShutsDown action
  · obtain ⟨hcount, hempty, hexecuted, hbefore⟩ := steps_of_shutsDown hs hstep hdown
    have hdelivered := delivered_iff_of_drained (hs.steps hstep) hempty
    simp only [Graceful, NoneWaiting, hcount, hdown, true_imp_iff, hdelivered, hexecuted, hbefore]
    refine forall₂_congr fun call hcall => ⟨?_, ?_⟩
    · intro h hwaiting
      exact h.resolve_right fun hrun => hs.not_waiting hrun hwaiting
    · intro h
      -- What was accepted has run or waits.
      have hknown := hs.calls.mem_iff.mpr (hs.before hcall)
      exact (List.mem_append.mp hknown).elim Or.inr fun hwaiting => Or.inl (h hwaiting)
  · obtain ⟨hcount, hexecuted, haccepted, hbefore⟩ := steps_of_not_shutsDown hstep hdown
    refine iff_of_true ?_ fun h => absurd h hdown
    intro hshut call hcall
    rw [hcount] at hshut
    rcases hbefore with hbefore | huncalled
    · rw [hbefore] at hcall
      exact (hgraceful hshut call hcall).mono hexecuted haccepted
    · rw [(hs.uncalled huncalled).1] at hshut
      exact absurd hshut (lt_irrefl 0)

/-- **Graceful shutdown across threads.**  A run shuts the write side down only
after the calls of `Send` accepted before `ShutDown` have been written, exactly
when each of its steps that shuts the write side down finds none of them
waiting. -/
theorem graceful_iff (highWaterMark : ℕ) (hasWriteComplete hasHighWaterMark : Bool)
    (actions : List ConnAction) :
    (machine highWaterMark hasWriteComplete hasHighWaterMark).Throughout Graceful
        (machine highWaterMark hasWriteComplete hasHighWaterMark).init actions ↔
      (machine highWaterMark hasWriteComplete hasHighWaterMark).EachStep NoneWaiting
        (machine highWaterMark hasWriteComplete hasHighWaterMark).init actions := by
  have hinit := Inv.init highWaterMark hasWriteComplete hasHighWaterMark
  refine Machine.throughout_iff_eachStep (I := Inv) ?_
    ?_ hinit ?_ actions
  · intro s a t hs hstep
    exact hs.steps (steps_of_step hstep)
  · intro s a t hs hP hstep
    exact graceful_step_iff hs hP (steps_of_step hstep)
  · exact fun hshut => absurd hshut (by simp [init, TcpConnection.new, Socket.new])

/-- Another thread sends a byte, and the loop thread shuts down before it runs
the task. -/
def shutDownOvertakes : List ConnAction :=
  [.established, .checkSend .foreign 1, .queueSend ⟨0, 1⟩, .checkShutDown .loop, .markShutDown,
    .finishShutDown]

theorem not_graceful_shutDownOvertakes :
    ∃ s, (machine 1 false false).exec (machine 1 false false).init shutDownOvertakes = some s ∧
      s.conn.socket.shutDownWrites = 1 ∧ s.conn.socket.accepted = [] ∧
      s.before = [⟨0, 1⟩] ∧ ¬ s.Graceful := by
  refine ⟨_, rfl, rfl, rfl, rfl, ?_⟩
  intro hgraceful
  rcases hgraceful (by decide) ⟨0, 1⟩ List.mem_cons_self with hzero | ⟨earlier, later, hcall, -⟩
  · cases hzero
  · replace hcall : [] = earlier ++ ⟨0, 1⟩ :: later := hcall
    simp at hcall

end SharedConnection

end YxAlpha
