import YxAlpha.Http.Scan
import YxAlpha.Library.Machine
import YxAlpha.Library.Reading

/-!
# The parser with its pointers

`ParseRequestLine` and `AddHeader` are given pointers into the vector of the buffer and
advance them past blanks, a `'?'`, a `':'` and white space.  `Context.lean` reads a list
of bytes instead, where there is nothing to overrun.  Here both are written with the pointers,
as programs that read the vector at indices they compute: a range whose end lies before its
start, and a read outside the vector, are failures.

`returns_parseRequestLine` and `returns_addHeader` say that on a line of the vector they
compute what `Context.lean` says and read that line only.  `Pointers.body` is an iteration
of `ParseRequest` with the indices it reads, and `map_fst_body` says that it is the one of
`Context.lean`, so what is proved about the parser there is about this one.
-/

namespace YxAlpha

namespace Pointers

open Reading

/-- `std::find` over `[first, last)`. -/
def find (first last : ℕ) (c : UInt8) : Reading UInt8 ℕ :=
  if first ≤ last then scan (· == c) (last - first) first else fail

/-- `std::string(first, last)`, and `assign(first, last)` likewise. -/
def string (first last : ℕ) : Reading UInt8 Bytes :=
  if first ≤ last then copy (last - first) first else fail

/-- `strncmp` of the bytes from `start` on with a literal.  It stops at the first difference and
at a terminator, and a read behind the literal is a failure. -/
def strncmp : ℕ → Bytes → ℕ → Reading UInt8 ℤ
  | start, b :: bs, n + 1 => do
      let a ← read start
      if a ≠ b then pure ((a.toNat : ℤ) - b.toNat)
      else if a = 0 then pure 0
      else strncmp (start + 1) bs n
  | _, [], _ + 1 => fail
  | _, _, 0 => pure 0

variable (request : HttpRequest)

def setMethod (start stop : ℕ) : Reading UInt8 (Bool × HttpRequest) := do
  let method ← string start stop
  pure (request.setMethod method)

def setPath (start stop : ℕ) : Reading UInt8 HttpRequest := do
  let path ← string start stop
  pure (request.setPath path)

def setQuery (start stop : ℕ) : Reading UInt8 HttpRequest := do
  let query ← string start stop
  pure (request.setQuery query)

/-- `AddHeader(start, colon, end)`.  White space at the end is cut off the copy. -/
def addHeader (start colon stop : ℕ) : Reading UInt8 HttpRequest := do
  let field ← string start colon
  -- The loop compares with `end` before it looks at a byte.
  let colon ← scan (fun c => !isSpace c) (stop - (colon + 1)) (colon + 1)
  let value ← string colon stop
  pure { request with headers := request.headers.insert field (value.rdropWhile isSpace) }

/-- `ParseRequestLine(begin, end)`. -/
def parseRequestLine (start stop : ℕ) : Reading UInt8 (Bool × HttpRequest) := do
  let afterMethod ← find start stop space
  if afterMethod = stop then pure (false, request)
  else do
    let known ← setMethod request start afterMethod
    if known.1 = false then pure (false, known.2)
    else do
      let start := afterMethod + 1
      let afterTarget ← find start stop space
      if afterTarget = stop then pure (false, known.2)
      else do
        let question ← find start afterTarget questionMark
        let request ←
          (if question ≠ stop then do
            let request ← setPath known.2 start question
            setQuery request question afterTarget
          else setPath known.2 start afterTarget)
        let start := afterTarget + 1
        let succeed ←
          (if stop - start = 8 then do
            let order ← strncmp start (ascii "HTTP/1." ++ [0]) (stop - start)
            pure (decide (order ≠ 0))
          else pure false)
        if succeed then do
          let ch ← read (stop - 1)
          if ch = 49 then pure (true, request.setVersion .http11)
          else if ch = 48 then pure (true, request.setVersion .http10)
          else pure (false, request.setVersion .unknown)
        else pure (false, request)

/-- One iteration of the loop of `ParseRequest`, and the indices at which
`ParseRequestLine`, `AddHeader` and the search for the colon read the vector.  `none` is a
failed assertion of the buffer, or one of the failures above. -/
def body (p : Parse) : Option (Parse × List ℕ) :=
  match p.context.state with
  | .expectRequestLine =>
      match p.buf.findCRLF with
      | some stop => do
          let ((ok, request), reads) ←
            parseRequestLine p.context.request p.buf.readIndex stop p.buf.buffer
          if ok then do
            let buf ← p.buf.moveReadIndexUntil (stop + 2)
            some ({ p with context := ⟨.expectHeaders, request⟩, buf, ok }, reads)
          else
            some ({ p with context := ⟨.expectRequestLine, request⟩, ok, flagEnd := true }, reads)
      | none => some ({ p with flagEnd := true }, [])
  | .expectHeaders =>
      match p.buf.findCRLF with
      | some stop => do
          let (parsed, reads) ← header stop p.buf.buffer
          let buf ← p.buf.moveReadIndexUntil (stop + 2)
          some ({ parsed with buf }, reads)
      | none => some ({ p with flagEnd := false }, [])
  | .expectBody => some (p, [])
  | .done => some (p, [])
where
  /-- The search for the colon of a header line and what is done with it. -/
  header (stop : ℕ) : Reading UInt8 Parse := do
    let colon ← find p.buf.readIndex stop colon
    if colon ≠ stop then do
      let request ← addHeader p.context.request p.buf.readIndex colon stop
      pure { p with context := ⟨.expectHeaders, request⟩ }
    else pure { p with context := ⟨.done, p.context.request⟩, flagEnd := true }

end Pointers

/-! ## Slices of a slice -/

theorem slice_slice (v : Bytes) {start stop i j : ℕ} (hj : start + j ≤ stop) :
    slice (slice v start stop) i j = slice v (start + i) (start + j) := by
  unfold slice
  rw [List.take_drop, List.take_take, List.drop_drop, Nat.min_eq_left hj]

theorem length_slice {v : Bytes} {start stop : ℕ} (hstop : stop ≤ v.length) :
    (slice v start stop).length = stop - start := by
  rw [slice, List.length_drop, List.length_take, Nat.min_eq_left hstop]

theorem slice_to_end {line : Bytes} {n : ℕ} (hn : line.length ≤ n) (i : ℕ) :
    slice line i n = line.drop i := by
  rw [slice, List.take_of_length_le hn]

/-- What is left of a line when the white space from index `i` on is skipped. -/
theorem slice_skip {line : Bytes} {n : ℕ} (hn : line.length ≤ n) (i : ℕ) :
    slice line (i + (line.drop i).findIdx fun c => !isSpace c) n =
      (line.drop i).dropWhile isSpace := by
  calc slice line (i + (line.drop i).findIdx fun c => !isSpace c) n
      = line.drop (i + (line.drop i).findIdx fun c => !isSpace c) := slice_to_end hn _
    _ = (line.drop i).drop ((line.drop i).findIdx fun c => !isSpace c) := List.drop_drop.symm
    _ = (line.drop i).dropWhile isSpace := List.dropWhile_eq_drop_findIdx_not.symm

theorem find_eq_slice (v : Bytes) (first last : ℕ) (c : UInt8) :
    find v first last c = first + (slice v first last).idxOf c := rfl

theorem find_slice (v : Bytes) {start stop i j : ℕ} (hj : start + j ≤ stop) (c : UInt8) :
    find v (start + i) (start + j) c = start + find (slice v start stop) i j c := by
  rw [find_eq_slice, find_eq_slice, slice_slice v hj, Nat.add_assoc]

theorem find_le {v : Bytes} {first last : ℕ} (hfirst : first ≤ last) (hlast : last ≤ v.length)
    (c : UInt8) : first ≤ find v first last c ∧ find v first last c ≤ last := by
  have hidx := List.idxOf_le_length (a := c) (l := slice v first last)
  rw [length_slice hlast] at hidx
  rw [find_eq_slice]
  omega

/-- What `strncmp` compares is all it depends on. -/
theorem strncmp_take (as bs : Bytes) {n m : ℕ} (hn : n ≤ m) :
    strncmp (as.take m) bs n = strncmp as bs n := by
  induction n generalizing as bs m with
  | zero => cases as <;> cases bs <;> simp [strncmp]
  | succ n ih =>
      obtain ⟨m, rfl⟩ := Nat.exists_eq_add_of_lt (show 0 < m by omega)
      cases as with
      | nil => rw [List.take_nil]
      | cons a as =>
          cases bs with
          | nil => rfl
          | cons b bs =>
              rw [Nat.zero_add, List.take_succ_cons, strncmp, strncmp, ih as bs (by omega)]

namespace Pointers

open Reading

variable {v : Bytes}

/-! ## Ranges of the vector -/

theorem returns_find {first last : ℕ} (hfirst : first ≤ last) (hlast : last ≤ v.length)
    (c : UInt8) : Returns v first last (find first last c) (YxAlpha.find v first last c) := by
  have hscan := Returns.scan (v := v) (· == c) (show first + (last - first) ≤ v.length by omega)
  rw [Nat.add_sub_of_le hfirst] at hscan
  rw [find, if_pos hfirst, find_eq_slice, slice, List.drop_take]
  exact hscan

theorem returns_string {first last : ℕ} (hfirst : first ≤ last) (hlast : last ≤ v.length) :
    Returns v first last (string first last) (slice v first last) := by
  have hcopy := Returns.copy (v := v) (show first + (last - first) ≤ v.length by omega)
  rw [Nat.add_sub_of_le hfirst] at hcopy
  rw [string, if_pos hfirst, slice, List.drop_take]
  exact hcopy

theorem returns_strncmp {pattern : Bytes} {start n : ℕ} (hpattern : n ≤ pattern.length)
    (hsize : start + n ≤ v.length) :
    Returns v start (start + n) (strncmp start pattern n)
      (YxAlpha.strncmp (v.drop start) pattern n) := by
  induction n generalizing start pattern with
  | zero =>
      have hzero (as bs : Bytes) : YxAlpha.strncmp as bs 0 = 0 := by
        cases as <;> cases bs <;> rfl
      rw [hzero, strncmp]
      exact Returns.pure 0
  | succ n ih =>
      cases pattern with
      | nil => exact absurd hpattern (Nat.not_succ_le_zero n)
      | cons b bs =>
          have hstart : start < v.length := by omega
          have hread : Returns v start (start + (n + 1)) (.read start) v[start] :=
            Returns.read le_rfl (by omega) (List.getElem?_eq_getElem hstart)
          have hrest := (ih (Nat.le_of_succ_le_succ hpattern)
            (show start + 1 + n ≤ v.length by omega)).mono (show start ≤ start + 1 by omega)
              (show start + 1 + n ≤ start + (n + 1) by omega)
          rw [List.drop_eq_getElem_cons hstart]
          refine Returns.bind hread (Returns.ite Iff.rfl (fun _ => Returns.pure _) fun _ => ?_)
          exact Returns.ite Iff.rfl (fun _ => Returns.pure _) fun _ => hrest

/-! ## A line of the vector

The line is `[start, start + n)`, and a pointer into it is an index of the line away from
`start`. -/

section Line

variable {start n : ℕ} (hsize : start + n ≤ v.length)

include hsize

theorem length_line : (slice v start (start + n)).length = n := by
  rw [length_slice hsize, Nat.add_sub_cancel_left]

theorem returns_find_line {i j : ℕ} (hi : i ≤ j) (hj : j ≤ n) (c : UInt8) :
    Returns v start (start + n) (find (start + i) (start + j) c)
      (start + YxAlpha.find (slice v start (start + n)) i j c) := by
  have hfind := returns_find (show start + i ≤ start + j by omega)
    (show start + j ≤ v.length by omega) c
  rw [find_slice v (show start + j ≤ start + n by omega)] at hfind
  exact hfind.mono (by omega) (by omega)

theorem returns_string_line {i j : ℕ} (hi : i ≤ j) (hj : j ≤ n) :
    Returns v start (start + n) (string (start + i) (start + j))
      (slice (slice v start (start + n)) i j) := by
  rw [slice_slice v (show start + j ≤ start + n by omega)]
  exact (returns_string (by omega) (by omega)).mono (by omega) (by omega)

theorem returns_strncmp_line {pattern : Bytes} {i m : ℕ} (hm : i + m ≤ n)
    (hpattern : m ≤ pattern.length) :
    Returns v start (start + n) (strncmp (start + i) pattern m)
      (YxAlpha.strncmp ((slice v start (start + n)).drop i) pattern m) := by
  have hline : (slice v start (start + n)).drop i = (v.drop (start + i)).take (n - i) := by
    rw [slice, List.drop_drop, List.drop_take, Nat.add_sub_add_left]
  rw [hline, strncmp_take _ _ (by omega)]
  exact (returns_strncmp hpattern (by omega)).mono (by omega) (by omega)

/-- The byte at `end - 1`, when the line has one. -/
theorem returns_last_line (hn : 0 < n) :
    Returns v start (start + n) (read (start + n - 1))
      ((slice v start (start + n)).getD (n - 1) 0) := by
  have hlast : start + n - 1 < v.length := by omega
  have hvalue : (slice v start (start + n)).getD (n - 1) 0 = v[start + n - 1] := by
    rw [List.getD_eq_getElem?_getD, slice, List.getElem?_drop, ← Nat.add_sub_assoc hn,
      List.getElem?_take_of_lt (by omega), List.getElem?_eq_getElem hlast, Option.getD_some]
  rw [hvalue]
  exact Returns.read (by omega) (by omega) (List.getElem?_eq_getElem hlast)

variable (request : HttpRequest)

theorem returns_setMethod {i j : ℕ} (hi : i ≤ j) (hj : j ≤ n) :
    Returns v start (start + n) (setMethod request (start + i) (start + j))
      (request.setMethod (slice (slice v start (start + n)) i j)) :=
  (returns_string_line hsize hi hj).bind (Returns.pure _)

theorem returns_setPath {i j : ℕ} (hi : i ≤ j) (hj : j ≤ n) :
    Returns v start (start + n) (setPath request (start + i) (start + j))
      (request.setPath (slice (slice v start (start + n)) i j)) :=
  (returns_string_line hsize hi hj).bind (Returns.pure _)

theorem returns_setQuery {i j : ℕ} (hi : i ≤ j) (hj : j ≤ n) :
    Returns v start (start + n) (setQuery request (start + i) (start + j))
      (request.setQuery (slice (slice v start (start + n)) i j)) :=
  (returns_string_line hsize hi hj).bind (Returns.pure _)

/-- The white space behind index `i` of the line. -/
theorem returns_skip {i : ℕ} (hi : i ≤ n) :
    Returns v start (start + n) (scan (fun c => !isSpace c) (start + n - (start + i)) (start + i))
      (start + (i + ((slice v start (start + n)).drop i).findIdx fun c => !isSpace c)) := by
  have hscan := Returns.scan (v := v) (fun c => !isSpace c)
    (show start + i + (start + n - (start + i)) ≤ v.length by omega)
  rw [← List.drop_take, Nat.add_assoc start i (List.findIdx _ _), ← List.drop_drop] at hscan
  exact hscan.mono (by omega) (by omega)

/-- The colon of a header line is inside the line, so what is behind it still is a range. -/
theorem returns_addHeader {i : ℕ} (hi : i < n) :
    Returns v start (start + n) (addHeader request start (start + i) (start + n))
      (request.addHeader ((slice v start (start + n)).take i)
        ((slice v start (start + n)).drop (i + 1))) := by
  have hlength := length_line hsize
  have hskipped : ((slice v start (start + n)).drop (i + 1)).findIdx (fun c => !isSpace c) ≤
      n - (i + 1) := by
    calc ((slice v start (start + n)).drop (i + 1)).findIdx (fun c => !isSpace c)
        ≤ ((slice v start (start + n)).drop (i + 1)).length := List.findIdx_le_length
      _ = n - (i + 1) := by rw [List.length_drop, hlength]
  have hfield := returns_string_line hsize (Nat.zero_le i) hi.le
  have hskip := returns_skip hsize (Nat.succ_le_of_lt hi)
  have hvalue := returns_string_line hsize
    (Nat.add_le_of_le_sub' (Nat.succ_le_of_lt hi) hskipped) le_rfl
  rw [slice_skip hlength.le] at hvalue
  exact hfield.bind (hskip.bind (hvalue.bind (Returns.pure _)))

/-- A request line is parsed inside the line. -/
theorem returns_parseRequestLine :
    Returns v start (start + n) (parseRequestLine request start (start + n))
      (YxAlpha.parseRequestLine request (slice v start (start + n))) := by
  have hlength := length_line hsize
  unfold parseRequestLine YxAlpha.parseRequestLine
  simp only [hlength]
  -- The method is a range because the search starts at the beginning of the line.
  have hmethod := (find_le (Nat.zero_le n) hlength.ge space).2
  refine Returns.bind (returns_find_line hsize (Nat.zero_le n) le_rfl space) ?_
  refine Returns.ite Nat.add_left_cancel_iff (fun _ => Returns.pure _) fun hspace => ?_
  refine Returns.bind (returns_setMethod hsize request (Nat.zero_le _) hmethod) ?_
  refine Returns.ite Iff.rfl (fun _ => Returns.pure _) fun _ => ?_
  generalize (request.setMethod _).2 = request
  generalize YxAlpha.find _ 0 n space = afterMethod at *
  -- The blank was found before the end, so there is a range behind it.
  have hrest : afterMethod + 1 ≤ n := by omega
  have htarget := find_le hrest hlength.ge space
  refine Returns.bind (returns_find_line hsize hrest le_rfl space) ?_
  refine Returns.ite Nat.add_left_cancel_iff (fun _ => Returns.pure _) fun hblank => ?_
  have hquestion := find_le htarget.1 (htarget.2.trans hlength.ge) questionMark
  generalize YxAlpha.find _ (afterMethod + 1) n space = afterTarget at *
  refine Returns.bind (returns_find_line hsize htarget.1 htarget.2 questionMark) ?_
  generalize YxAlpha.find _ (afterMethod + 1) afterTarget questionMark = question at *
  have hpath := returns_setPath hsize request hquestion.1 (hquestion.2.trans htarget.2)
  have hquery (stored : HttpRequest) := returns_setQuery hsize stored hquestion.2 htarget.2
  have hwhole := returns_setPath hsize request htarget.1 htarget.2
  refine Returns.bind (Returns.ite (not_congr Nat.add_left_cancel_iff)
    (fun _ => hpath.bind (hquery _)) fun _ => hwhole) ?_
  generalize (if question ≠ n then _ else _) = request
  -- Only a version of eight bytes is compared, and only such a version has a last byte.
  have hcount : start + n - (start + afterTarget + 1) = n - (afterTarget + 1) := by omega
  simp only [hcount]
  generalize hversion : n - (afterTarget + 1) = size
  have hcompare (hsize8 : size = 8) := returns_strncmp_line hsize
    (show afterTarget + 1 + size ≤ n by omega)
    (show size ≤ (ascii "HTTP/1." ++ [0]).length by rw [hsize8]; decide)
  refine Returns.bind (Returns.ite Iff.rfl (fun h8 => (hcompare h8).bind (Returns.pure _))
    fun _ => Returns.pure false) ?_
  refine Returns.ite (by split <;> simp_all) (fun hsucceed => ?_) fun _ => Returns.pure _
  refine Returns.bind (returns_last_line hsize (show 0 < n by omega)) ?_
  refine Returns.ite Iff.rfl (fun _ => Returns.pure _) fun _ => ?_
  exact Returns.ite Iff.rfl (fun _ => Returns.pure _) fun _ => Returns.pure _

end Line

/-- With the colon at the end the value would be a range that ends before it starts.  This is
what `ParseRequest` excludes by comparing the colon with the end. -/
theorem addHeader_colon_at_end (request : HttpRequest) (start stop : ℕ) :
    addHeader request start stop stop v = none := by
  have hskip : stop - (stop + 1) = 0 := by omega
  have hvalue : string (stop + 1) stop = fail := if_neg (by omega)
  rw [addHeader, hskip]
  cases hfield : string start stop v with
  | none => simp [bind, hfield]
  | some field => simp [bind, pure, hfield, scan, hvalue, fail]

/-! ## An iteration -/

/-- The line that `findCRLF` finds, with its delimiter, lies between the indices. -/
theorem exists_line_of_findCRLF {b : Buffer} {stop : ℕ} (h : b.findCRLF = some stop) :
    ∃ line rest, crlf.cut b.payload = some (line, rest) ∧ stop = b.readIndex + line.length ∧
      stop + 2 ≤ b.writeIndex := by
  cases hcut : crlf.cut b.payload with
  | none =>
      rw [findCRLF_of_cut_none hcut] at h
      cases h
  | some pair =>
      obtain ⟨line, rest⟩ := pair
      have hfind := (findCRLF_of_cut hcut).1
      have hlength := congrArg List.length (crlf.cut_eq_some hcut).1
      obtain ⟨-, hread, -, hsize, -⟩ := b.layout
      simp only [Buffer.length_payload, List.length_append, crlf_word, List.length_cons,
        List.length_nil] at hlength
      have hstop : stop = b.readIndex + line.length := Option.some.inj (h.symm.trans hfind)
      exact ⟨line, rest, rfl, hstop, by omega⟩

theorem returns_header {p : Parse} {stop : ℕ} (hstart : p.buf.readIndex ≤ stop)
    (hstop : stop ≤ p.buf.buffer.length) :
    let line := slice p.buf.buffer p.buf.readIndex stop
    Returns p.buf.buffer p.buf.readIndex stop (body.header p stop)
      (if line.idxOf colon ≠ line.length then
        { p with context := ⟨.expectHeaders, p.context.request.addHeader
          (line.take (line.idxOf colon)) (line.drop (line.idxOf colon + 1))⟩ }
      else { p with context := ⟨.done, p.context.request⟩, flagEnd := true }) := by
  obtain ⟨n, rfl⟩ := Nat.exists_eq_add_of_le hstart
  have hlength := length_line hstop
  have hcolon := returns_find_line hstop (Nat.zero_le n) le_rfl colon
  rw [find_eq_slice, slice_to_end hlength.le, List.drop_zero, Nat.zero_add] at hcolon
  have hle := List.idxOf_le_length (a := colon)
    (l := slice p.buf.buffer p.buf.readIndex (p.buf.readIndex + n))
  intro line
  refine Returns.bind hcolon (Returns.ite ?_ (fun hne => ?_) fun _ => Returns.pure _)
  · rw [hlength]
    exact not_congr Nat.add_left_cancel_iff
  · have hlt := lt_of_le_of_ne hle hne
    exact (returns_addHeader hstop _ (hlt.trans_eq hlength)).bind (Returns.pure _)

/-- An iteration with pointers never fails, does what the iteration of `Context.lean` does and
reads the line in front of it only. -/
theorem exists_body (p : Parse) :
    ∃ next reads, body p = some (next, reads) ∧ p.body = some next ∧
      ∀ i ∈ reads, ∃ stop, p.buf.findCRLF = some stop ∧ p.buf.readIndex ≤ i ∧ i < stop := by
  obtain ⟨⟨state, request⟩, buf, ok, flagEnd⟩ := p
  cases hfind : buf.findCRLF with
  | none => cases state <;> simp [body, Parse.body, hfind]
  | some stop =>
      obtain ⟨line, rest, hcut, hstop, hend⟩ := exists_line_of_findCRLF hfind
      obtain ⟨-, -, moved, hmove, -⟩ := findCRLF_of_cut hcut
      rw [← hstop] at hmove
      have hstart : buf.readIndex ≤ stop := by omega
      have hsize : stop ≤ buf.buffer.length := by
        have hwrite := buf.write_le_size
        omega
      cases state with
      | expectRequestLine =>
          obtain ⟨n, rfl⟩ := Nat.exists_eq_add_of_le hstart
          obtain ⟨reads, hrun, hreads⟩ := returns_parseRequestLine hsize request
          generalize hparsed : YxAlpha.parseRequestLine request _ = parsed at hrun
          obtain ⟨succeed, request'⟩ := parsed
          cases succeed with
          | true =>
              refine ⟨⟨⟨.expectHeaders, request'⟩, moved, true, flagEnd⟩, reads, ?_, ?_, ?_⟩
              · simp [body, hfind, hrun, hmove]
              · simp [Parse.body, hfind, hparsed, hmove]
              · exact fun i hi => ⟨_, rfl, hreads i hi⟩
          | false =>
              refine ⟨⟨⟨.expectRequestLine, request'⟩, buf, false, true⟩, reads, ?_, ?_, ?_⟩
              · simp [body, hfind, hrun]
              · simp [Parse.body, hfind, hparsed]
              · exact fun i hi => ⟨_, rfl, hreads i hi⟩
      | expectHeaders =>
          obtain ⟨reads, hrun, hreads⟩ :=
            returns_header (p := ⟨⟨.expectHeaders, request⟩, buf, ok, flagEnd⟩) hstart hsize
          dsimp only at hrun
          generalize hparsed :
            (if List.idxOf colon _ ≠ List.length _ then _ else _ : Parse) = parsed at hrun
          refine ⟨{ parsed with buf := moved }, reads, ?_, ?_, ?_⟩
          · simp [body, hfind, hrun, hmove]
          · simp only [Parse.body, hfind, hmove, hparsed, Option.map_some]
          · exact fun i hi => ⟨stop, rfl, hreads i hi⟩
      | expectBody => exact ⟨_, [], rfl, rfl, fun i hi => absurd hi List.not_mem_nil⟩
      | done => exact ⟨_, [], rfl, rfl, fun i hi => absurd hi List.not_mem_nil⟩

theorem map_fst_body (p : Parse) : (body p).map Prod.fst = p.body := by
  obtain ⟨next, reads, hrun, hbody, -⟩ := exists_body p
  rw [hrun, hbody, Option.map_some]

end Pointers

end YxAlpha
