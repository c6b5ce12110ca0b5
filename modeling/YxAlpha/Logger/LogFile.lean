import Mathlib.Data.List.Forall2
import Mathlib.Data.List.Infix
import YxAlpha.Library.Machine
import YxAlpha.Utility.Bytes

/-!
# The log file

`AppendFile` of `logger/fileutil.h` is a stdio stream with a buffer of its own, and `LogFile`
of `logger/logfile.h` appends lines to one and flushes it after every `check_every_n_` of them.
What stdio does is in the actions: how much a call of `fwrite_unlocked` takes, and what it
writes to the file meanwhile.  Until an error it has written a first part of what it has
taken, and all of that but what the buffer has room for.

`Append` offers what is left of a line as long as something of it is taken, and so no byte of a
line is taken twice and none is passed over (`append_spec`); only when nothing is taken the
rest of the line is given up.
-/

namespace YxAlpha

/-- `fp_` and `buffer_`. -/
structure AppendFile where
  /-- What stdio has taken. -/
  taken : Bytes
  /-- What of it has got to the file. -/
  written : Bytes
  /-- The error indicator of the stream, which nothing clears. -/
  error : Bool
  deriving Repr

/-- What a call of `fwrite_unlocked` returns, and what it writes to the file. -/
structure FwriteResult where
  count : ℕ
  written : Bytes
  deriving Repr

/-- What a call of `fflush` or `fclose` writes to the file, and whether it returns `EOF`. -/
structure FflushResult where
  written : Bytes
  eof : Bool
  deriving Repr

namespace AppendFile

/-- `sizeof buffer_`. -/
def bufferSize : ℕ := 64 * 1024

def new : AppendFile := ⟨[], [], false⟩

variable (f : AppendFile)

/-- What is not in the file yet is in the buffer. -/
def Buffered : Prop := f.written <+: f.taken ∧ f.taken.length ≤ f.written.length + bufferSize

instance : Decidable f.Buffered := inferInstanceAs (Decidable (_ ∧ _))

/-- `fwrite_unlocked`; a short count means an error. -/
def fwrite (bytes : Bytes) (r : FwriteResult) : AppendFile where
  taken := f.taken ++ bytes.take r.count
  written := f.written ++ r.written
  error := f.error || decide (r.count < bytes.length)

/-- What `fwrite_unlocked` may do. -/
def FwriteFits (bytes : Bytes) (r : FwriteResult) : Prop :=
  r.count ≤ bytes.length ∧ ((f.fwrite bytes r).error = false → (f.fwrite bytes r).Buffered)

instance (bytes : Bytes) (r : FwriteResult) : Decidable (f.FwriteFits bytes r) :=
  inferInstanceAs (Decidable (_ ∧ _))

/-- The loop of `Append`, with `rest` still to be taken. -/
def appendLoop (f : AppendFile) (rest : Bytes) : List FwriteResult → Option AppendFile
  | [] => if rest = [] then some f else none
  | r :: results =>
      if rest ≠ [] ∧ f.FwriteFits rest r then
        if r.count = 0 then if results = [] then some (f.fwrite rest r) else none
        else appendLoop (f.fwrite rest r) (rest.drop r.count) results
      else none

/-- `Append`, with what the calls of `fwrite_unlocked` do; the first is made in any case. -/
def append (logline : Bytes) (first : FwriteResult) (results : List FwriteResult) :
    Option AppendFile :=
  if f.FwriteFits logline first then
    (f.fwrite logline first).appendLoop (logline.drop first.count) results
  else none

/-- `Flush`, and the `fclose` of the destructor. -/
def flush (r : FflushResult) : Option AppendFile :=
  let flushed : AppendFile :=
    { f with written := f.written ++ r.written, error := f.error || r.eof }
  if flushed.error = false → flushed.written = flushed.taken then some flushed else none

/-! ## One line -/

variable {f} {g : AppendFile}

/-- What appending or flushing adds: a first part of the line, all of it unless there is an
error. -/
structure Adds (f : AppendFile) (line : Bytes) (g : AppendFile) : Prop where
  taken : ∃ part, part <+: line ∧ g.taken = f.taken ++ part
  written : f.written <+: g.written
  error : g.error = false → f.error = false ∧ g.taken = f.taken ++ line ∧ g.Buffered

theorem adds_fwrite {bytes : Bytes} {r : FwriteResult} (hr : f.FwriteFits bytes r) :
    Adds f bytes (f.fwrite bytes r) where
  taken := ⟨bytes.take r.count, List.take_prefix _ _, rfl⟩
  written := List.prefix_append _ _
  error herror := by
    have hbuffered := hr.2 herror
    rw [fwrite, Bool.or_eq_false_iff, decide_eq_false_iff_not] at herror
    have htake : bytes.take r.count = bytes := List.take_of_length_le (Nat.not_lt.mp herror.2)
    exact ⟨herror.1, by rw [fwrite, htake], hbuffered⟩

theorem Adds.trans {h : AppendFile} {bytes : Bytes} {n : ℕ} (hfg : Adds f bytes g)
    (htaken : g.taken = f.taken ++ bytes.take n) (hgh : Adds g (bytes.drop n) h) :
    Adds f bytes h where
  taken := by
    obtain ⟨part, hpart, hh⟩ := hgh.taken
    refine ⟨bytes.take n ++ part, ?_, by rw [hh, htaken, List.append_assoc]⟩
    calc bytes.take n ++ part <+: bytes.take n ++ bytes.drop n :=
          (List.prefix_append_right_inj _).mpr hpart
      _ = bytes := List.take_append_drop n bytes
  written := hfg.written.trans hgh.written
  error herror := by
    obtain ⟨hg, hall, hbuffered⟩ := hgh.error herror
    refine ⟨(hfg.error hg).1, ?_, hbuffered⟩
    rw [hall, htaken, List.append_assoc, List.take_append_drop]

/-- The loop goes on where the last call has stopped. -/
theorem adds_appendLoop {rest : Bytes} {results : List FwriteResult}
    (hbuffered : f.error = false → f.Buffered) (hloop : f.appendLoop rest results = some g) :
    Adds f rest g := by
  induction results generalizing f rest with
  | nil =>
      rw [appendLoop, Option.ite_none_right_eq_some] at hloop
      obtain ⟨rfl, hfg⟩ := hloop
      cases hfg
      exact ⟨⟨[], List.prefix_rfl, (List.append_nil _).symm⟩, List.prefix_rfl, fun herror =>
        ⟨herror, (List.append_nil _).symm, hbuffered herror⟩⟩
  | cons r results ih =>
      rw [appendLoop, Option.ite_none_right_eq_some] at hloop
      obtain ⟨⟨-, hfits⟩, hloop⟩ := hloop
      have hwrite : Adds f rest (f.fwrite rest r) := adds_fwrite hfits
      split at hloop
      · -- nothing is taken: the loop is left
        rw [Option.ite_none_right_eq_some] at hloop
        cases hloop.2
        exact hwrite
      · exact hwrite.trans rfl (ih hfits.2 hloop)

theorem append_spec {logline : Bytes} {first : FwriteResult} {results : List FwriteResult}
    (happend : f.append logline first results = some g) : Adds f logline g := by
  rw [append, Option.ite_none_right_eq_some] at happend
  exact (adds_fwrite happend.1).trans rfl (adds_appendLoop happend.1.2 happend.2)

theorem flush_spec {r : FflushResult} (hflush : f.flush r = some g) :
    g.taken = f.taken ∧ f.written <+: g.written ∧
      (g.error = false → f.error = false ∧ g.written = g.taken) := by
  rw [flush, Option.ite_none_right_eq_some] at hflush
  obtain ⟨hall, hfg⟩ := hflush
  cases hfg
  exact ⟨rfl, List.prefix_append _ _, fun herror =>
    ⟨(Bool.or_eq_false_iff.mp herror).1, hall herror⟩⟩

/-- After a short count the loop goes on with the third byte. -/
example : (new.append [1, 2, 3] ⟨2, []⟩ [⟨1, [1]⟩]).map taken = some [1, 2, 3] := by decide

/-- Whatever stdio does, `Append` returns: every turn of its loop but the last takes a byte. -/
theorem exists_append (answer : AppendFile → Bytes → FwriteResult)
    (hanswer : ∀ f bytes, AppendFile.FwriteFits f bytes (answer f bytes)) (f : AppendFile)
    (logline : Bytes) :
    ∃ first results g, f.append logline first results = some g ∧
      results.length ≤ logline.length := by
  have hloop : ∀ n (f : AppendFile) (rest : Bytes), rest.length ≤ n →
      ∃ results g, f.appendLoop rest results = some g ∧ results.length ≤ n := by
    intro n
    induction n with
    | zero =>
        intro f rest hlength
        obtain rfl := List.eq_nil_of_length_eq_zero (Nat.le_zero.mp hlength)
        exact ⟨[], f, rfl, le_rfl⟩
    | succ n ih =>
        intro f rest hlength
        by_cases hrest : rest = []
        · exact ⟨[], f, if_pos hrest, Nat.zero_le _⟩
        · by_cases hzero : (answer f rest).count = 0
          · refine ⟨[answer f rest], f.fwrite rest (answer f rest), ?_,
              Nat.succ_le_succ (Nat.zero_le n)⟩
            rw [appendLoop, if_pos ⟨hrest, hanswer f rest⟩, if_pos hzero, if_pos rfl]
          · have hleft : (rest.drop (answer f rest).count).length ≤ n := by
              rw [List.length_drop]
              omega
            obtain ⟨results, g, hg, hn⟩ := ih (f.fwrite rest (answer f rest)) _ hleft
            refine ⟨answer f rest :: results, g, ?_, Nat.succ_le_succ hn⟩
            rw [appendLoop, if_pos ⟨hrest, hanswer f rest⟩, if_neg hzero]
            exact hg
  obtain ⟨results, g, hg, hn⟩ := hloop logline.length (f.fwrite logline (answer f logline))
    (logline.drop (answer f logline).count) (by rw [List.length_drop]; omega)
  exact ⟨answer f logline, results, g, by rw [append, if_pos (hanswer f logline), hg], hn⟩

end AppendFile

/-! ## The log file -/

/-- A call of `LogFile`. -/
inductive LogFileCall
  | append (logline : Bytes)
  | flush
  /-- The destructor. -/
  | close
  deriving DecidableEq, Repr

/-- A call with what stdio does in it; `flushed` is what a flush that is due in `Append_` does. -/
inductive LogFileAction
  | append (logline : Bytes) (first : FwriteResult) (results : List FwriteResult)
      (flushed : FflushResult)
  | flush (flushed : FflushResult)
  | close (flushed : FflushResult)

def LogFileAction.call : LogFileAction → LogFileCall
  | append logline _ _ _ => .append logline
  | flush _ => .flush
  | close _ => .close

/-- A log file without a mutex: one thread uses it. -/
structure LogFile where
  count : ℕ
  checkEveryN : ℤ
  file : AppendFile
  /-- The lines that `Append` has been called with. -/
  lines : List Bytes

/-- The default of `check_every_n`. -/
def defaultCheckEveryN : ℤ := 1024

namespace LogFile

def new (checkEveryN : ℤ) : LogFile := ⟨0, checkEveryN, .new, []⟩

variable (s : LogFile)

/-- `Append_` behind the append to the file. -/
def countLine (logline : Bytes) (flushed : FflushResult) (file : AppendFile) : Option LogFile :=
  if s.checkEveryN ≤ s.count + 1 then
    (file.flush flushed).map fun file => { s with count := 0, file, lines := s.lines ++ [logline] }
  else some { s with count := s.count + 1, file, lines := s.lines ++ [logline] }

def append (logline : Bytes) (first : FwriteResult) (results : List FwriteResult)
    (flushed : FflushResult) : Option LogFile :=
  (s.file.append logline first results).bind (s.countLine logline flushed)

/-- `Flush` leaves the count as it is. -/
def flush (flushed : FflushResult) : Option LogFile :=
  (s.file.flush flushed).map fun file => { s with file }

def step (s : LogFile) : LogFileAction → Option LogFile
  | .append logline first results flushed => s.append logline first results flushed
  | .flush flushed | .close flushed => s.flush flushed

def machine (checkEveryN : ℤ) : Machine LogFile LogFileAction where
  init := new checkEveryN
  step := step

variable {s} {t : LogFile}

/-- What is known of a file to which the lines have been appended, all but the last `late` of
them before a flush. -/
structure Safe (lines : List Bytes) (late : ℕ) (file : AppendFile) : Prop where
  /-- Of every line a first part has been taken, in order and once, also after an error. -/
  parts : ∃ parts : List Bytes, List.Forall₂ (· <+: ·) parts lines ∧ file.taken = parts.flatten
  whole : file.error = false → file.taken = lines.flatten
  buffered : file.error = false → file.Buffered
  synced : file.error = false → (lines.take (lines.length - late)).flatten <+: file.written

/-- Of the lines all but the last are safe, and a flush is due before these are too many. -/
structure Durable (checkEveryN : ℤ) (s : LogFile) : Prop where
  safe : Safe s.lines s.count s.file
  every : s.checkEveryN = checkEveryN
  count : s.count = 0 ∨ s.count < checkEveryN

theorem Safe.append {lines : List Bytes} {late : ℕ} {file next : AppendFile} {logline : Bytes}
    {first : FwriteResult} {results : List FwriteResult} (hs : Safe lines late file)
    (happend : file.append logline first results = some next) :
    Safe (lines ++ [logline]) (late + 1) next where
  parts := by
    obtain ⟨parts, hparts, htaken⟩ := hs.parts
    obtain ⟨part, hpart, hadded⟩ := (AppendFile.append_spec happend).taken
    refine ⟨parts ++ [part], List.rel_append hparts (.cons hpart .nil), ?_⟩
    simp [hadded, htaken]
  whole herror := by
    obtain ⟨hbefore, hall, -⟩ := (AppendFile.append_spec happend).error herror
    simp [hall, hs.whole hbefore]
  buffered herror := ((AppendFile.append_spec happend).error herror).2.2
  synced herror := by
    have hadds := AppendFile.append_spec happend
    have hlength : (lines ++ [logline]).length - (late + 1) = lines.length - late := by simp
    rw [hlength, List.take_append_of_le_length (Nat.sub_le _ _)]
    exact (hs.synced (hadds.error herror).1).trans hadds.written

/-- After a flush all that has been taken is in the file. -/
theorem Safe.flush {lines : List Bytes} {late : ℕ} {file next : AppendFile}
    {flushed : FflushResult} (hs : Safe lines late file)
    (hflush : file.flush flushed = some next) :
    (∀ late, Safe lines late next) ∧ (next.error = false → next.written = lines.flatten) := by
  obtain ⟨htaken, -, hall⟩ := AppendFile.flush_spec hflush
  have hwhole : next.error = false → next.taken = lines.flatten := by
    intro herror
    rw [htaken, hs.whole (hall herror).1]
  have hwritten : next.error = false → next.written = lines.flatten := by
    intro herror
    rw [(hall herror).2, hwhole herror]
  refine ⟨fun late => ⟨htaken ▸ hs.parts, hwhole, ?_, ?_⟩, hwritten⟩
  · intro herror
    rw [AppendFile.Buffered, (hall herror).2]
    exact ⟨List.prefix_rfl, Nat.le_add_right _ _⟩
  · intro herror
    rw [hwritten herror]
    exact (List.take_prefix _ _).flatten

variable {checkEveryN : ℤ}

theorem durable_new (checkEveryN : ℤ) : Durable checkEveryN (new checkEveryN) where
  safe := ⟨⟨[], .nil, rfl⟩, fun _ => rfl, fun _ => ⟨List.prefix_rfl, Nat.zero_le _⟩,
    fun _ => List.prefix_rfl⟩
  every := rfl
  count := Or.inl rfl

theorem Durable.append {logline : Bytes} {first : FwriteResult} {results : List FwriteResult}
    {flushed : FflushResult} (hs : Durable checkEveryN s)
    (happend : s.append logline first results flushed = some t) :
    Durable checkEveryN t ∧ t.lines = s.lines ++ [logline] := by
  obtain ⟨file, hfile, hcount⟩ := Option.bind_eq_some_iff.mp happend
  have hsafe := hs.safe.append hfile
  unfold countLine at hcount
  split at hcount
  · obtain ⟨next, hnext, rfl⟩ := Option.map_eq_some_iff.mp hcount
    exact ⟨⟨(hsafe.flush hnext).1 0, hs.every, Or.inl rfl⟩, rfl⟩
  · rename_i hdue
    cases hcount
    refine ⟨⟨hsafe, hs.every, Or.inr ?_⟩, rfl⟩
    rw [← hs.every]
    push_cast
    omega

theorem Durable.flush {flushed : FflushResult} (hs : Durable checkEveryN s)
    (hflush : s.flush flushed = some t) :
    Durable checkEveryN t ∧ t.lines = s.lines ∧
      (t.file.error = false → t.file.written = t.lines.flatten) := by
  obtain ⟨file, hfile, rfl⟩ := Option.map_eq_some_iff.mp hflush
  obtain ⟨hsafe, hwritten⟩ := hs.safe.flush hfile
  exact ⟨⟨hsafe s.count, hs.every, hs.count⟩, rfl, hwritten⟩

theorem Durable.step {action : LogFileAction} (hs : Durable checkEveryN s)
    (hstep : s.step action = some t) : Durable checkEveryN t := by
  cases action with
  | append logline first results flushed => exact (hs.append hstep).1
  | flush flushed | close flushed => exact (hs.flush hstep).1

/-- **Lines appended are safe but for the last ones**, in any run: what stdio has taken is
the lines, each cut short only by an error; and without one, the file holds them all but fewer
than `check_every_n_`, the last, and but a bufferful of bytes. -/
theorem durable (checkEveryN : ℤ) (actions : List LogFileAction) :
    (machine checkEveryN).Throughout (Durable checkEveryN) (machine checkEveryN).init actions :=
  Machine.throughout_of_invariant (m := machine checkEveryN)
    (fun _ _ _ hs hstep => hs.step hstep) (durable_new checkEveryN) actions

end LogFile

end YxAlpha
