import YxAlpha.Http.Context

/-!
# The parser over unread bytes

`Scan` is the parser without the indices: the buffer is replaced by its payload,
the bytes that are still unread, and `findCRLF` by cutting the first line off.
`Parse.map_scan_body` and `Parse.map_scan_loop` say that the parser of
`Context.lean` is this one seen through `Buffer.payload`, with no assertion of
the buffer ever failing.

What the loop computes is then said without it: `headerSection` reads header
lines up to the first line without a colon, `Scan.result` is the outcome of a
whole call, and `Scan.ends_iff` says that the loop ends with exactly that
outcome, or never when there is none.
-/

namespace YxAlpha

/-! ## Lines of the buffer -/

theorem slice_payload (b : Buffer) {i : ℕ} (hi : i ≤ b.payloadSize) :
    slice b.buffer b.readIndex (b.readIndex + i) = b.payload.take i := by
  have hread := b.read_le_write
  have hsize : b.payloadSize = b.writeIndex - b.readIndex := rfl
  rw [Buffer.payload, List.take_drop, List.take_take, Nat.min_eq_left (by omega)]
  rfl

theorem findCRLF_of_cut_none {b : Buffer} (h : crlf.cut b.payload = none) : b.findCRLF = none := by
  rw [Buffer.findCRLF, Option.map_eq_none_iff, crlf.search_eq_none_iff]
  exact crlf.cut_eq_none_iff.mp h

/-- The line found in the buffer, and the move of the read index behind it. -/
theorem findCRLF_of_cut {b : Buffer} {line rest : Bytes}
    (h : crlf.cut b.payload = some (line, rest)) :
    b.findCRLF = some (b.readIndex + line.length) ∧
      slice b.buffer b.readIndex (b.readIndex + line.length) = line ∧
      ∃ b', b.moveReadIndexUntil (b.readIndex + line.length + 2) = some b' ∧ b'.payload = rest := by
  obtain ⟨hpayload, hfree⟩ := crlf.cut_eq_some h
  have hlength := congrArg List.length hpayload
  simp only [Buffer.length_payload, List.length_append, crlf_word, List.length_cons,
    List.length_nil] at hlength
  refine ⟨?_, ?_, ?_⟩
  · rw [Buffer.findCRLF, hpayload, crlf.search_delimited hfree, Option.map_some]
  · rw [slice_payload b (by omega), hpayload, List.append_assoc, List.take_left]
  · have hsize : line.length + 2 ≤ b.payloadSize := by omega
    obtain ⟨b', hmove, hb'⟩ := b.moveReadIndexUntil_spec hsize
    refine ⟨b', hmove, ?_⟩
    have hdrop : line.length + 2 = (line ++ crlf.word).length := by simp
    rw [hb', hpayload, hdrop, List.drop_left]

/-! ## Acceptance of a line does not depend on the request -/

theorem parseRequestLine_fst (request : HttpRequest) (line : Bytes) :
    (parseRequestLine request line).1 = accepts line := by
  have hknown (token : Bytes) :
      (request.setMethod token).1 = (HttpRequest.new.setMethod token).1 := rfl
  unfold accepts parseRequestLine
  simp only [hknown, apply_ite Prod.fst]

/-! ## The parser over unread bytes -/

/-- `Parse` with the payload in place of the buffer. -/
structure Scan where
  context : HttpContext
  unread : Bytes
  ok : Bool
  flagEnd : Bool

def Parse.scan (p : Parse) : Scan := ⟨p.context, p.buf.payload, p.ok, p.flagEnd⟩

namespace Scan

def body (s : Scan) : Scan :=
  match s.context.state with
  | .expectRequestLine =>
      match crlf.cut s.unread with
      | some (line, rest) =>
          let request := (parseRequestLine s.context.request line).2
          if accepts line then ⟨⟨.expectHeaders, request⟩, rest, true, s.flagEnd⟩
          else ⟨⟨.expectRequestLine, request⟩, s.unread, false, true⟩
      | none => { s with flagEnd := true }
  | .expectHeaders =>
      match crlf.cut s.unread with
      | some (line, rest) =>
          if colon ∈ line then
            ⟨⟨.expectHeaders, s.context.request.addHeaderLine line⟩, rest, s.ok, s.flagEnd⟩
          else ⟨⟨.done, s.context.request⟩, rest, s.ok, true⟩
      | none => { s with flagEnd := false }
  | .expectBody => s
  | .done => s

def loop : ℕ → Scan → Option Scan
  | 0, s => if s.flagEnd then some s else none
  | fuel + 1, s => if s.flagEnd then some s else loop fuel s.body

end Scan

theorem idxOf_ne_length_iff (line : Bytes) : line.idxOf colon ≠ line.length ↔ colon ∈ line := by
  rw [← List.idxOf_lt_length_iff]
  have := List.idxOf_le_length (a := colon) (l := line)
  omega

/-- One iteration on the buffer is one iteration on its payload. -/
theorem Parse.map_scan_body (p : Parse) : p.body.map Parse.scan = some p.scan.body := by
  obtain ⟨⟨state, request⟩, buf, ok, flagEnd⟩ := p
  cases state with
  | expectRequestLine =>
      cases hcut : crlf.cut buf.payload with
      | none => simp [Parse.body, Parse.scan, Scan.body, findCRLF_of_cut_none hcut, hcut]
      | some pair =>
          obtain ⟨line, rest⟩ := pair
          obtain ⟨hfind, hline, b', hmove, hrest⟩ := findCRLF_of_cut hcut
          have haccepts := parseRequestLine_fst request line
          simp only [Parse.body, Parse.scan, Scan.body, hfind, hline, hcut, hmove, haccepts]
          cases accepts line <;> simp [Parse.scan, hrest]
  | expectHeaders =>
      cases hcut : crlf.cut buf.payload with
      | none => simp [Parse.body, Parse.scan, Scan.body, findCRLF_of_cut_none hcut, hcut]
      | some pair =>
          obtain ⟨line, rest⟩ := pair
          obtain ⟨hfind, hline, b', hmove, hrest⟩ := findCRLF_of_cut hcut
          simp only [Parse.body, Parse.scan, Scan.body, hfind, hline, hcut, hmove,
            idxOf_ne_length_iff, Option.map_some]
          split <;> simp [hrest, HttpRequest.addHeaderLine, fieldOf]
  | expectBody => rfl
  | done => rfl

/-- The loop on the buffer is the loop on its payload. -/
theorem Parse.map_scan_loop (fuel : ℕ) (p : Parse) :
    (p.loop fuel).map Parse.scan = p.scan.loop fuel := by
  induction fuel generalizing p with
  | zero =>
      show Option.map _ (if p.flagEnd then _ else _) = if p.flagEnd then _ else _
      cases p.flagEnd <;> rfl
  | succ fuel ih =>
      obtain ⟨q, hq, hscan⟩ := Option.map_eq_some_iff.mp p.map_scan_body
      rw [Parse.loop, Scan.loop, hq, Option.bind_some, ← hscan, ← ih q]
      show Option.map _ (if p.flagEnd then _ else _) = if p.flagEnd then _ else _
      cases p.flagEnd <;> rfl

/-! ## What the loop computes -/

namespace Scan

/-- The loop leaves `s` with `t` after some number of iterations. -/
def Ends (s t : Scan) : Prop := ∃ fuel, s.loop fuel = some t

theorem loop_of_flagEnd {s : Scan} (hflag : s.flagEnd = true) (fuel : ℕ) :
    s.loop fuel = some s := by
  cases fuel <;> simp [loop, hflag]

theorem loop_succ_of_not_flagEnd {s : Scan} (hflag : s.flagEnd = false) (fuel : ℕ) :
    s.loop (fuel + 1) = s.body.loop fuel := by
  simp [loop, hflag]

theorem loop_succ {fuel : ℕ} {s t : Scan} (h : s.loop fuel = some t) :
    s.loop (fuel + 1) = some t := by
  induction fuel generalizing s with
  | zero =>
      cases hflag : s.flagEnd with
      | true => rwa [loop_of_flagEnd hflag] at h ⊢
      | false => simp [loop, hflag] at h
  | succ fuel ih =>
      cases hflag : s.flagEnd with
      | true => rwa [loop_of_flagEnd hflag] at h ⊢
      | false =>
          rw [loop_succ_of_not_flagEnd hflag] at h ⊢
          exact ih h

theorem loop_mono {fuel larger : ℕ} (hle : fuel ≤ larger) {s t : Scan}
    (h : s.loop fuel = some t) : s.loop larger = some t := by
  induction larger, hle using Nat.le_induction with
  | base => exact h
  | succ larger _ ih => exact loop_succ ih

theorem ends_of_flagEnd {s t : Scan} (hflag : s.flagEnd = true) : s.Ends t ↔ s = t := by
  simp [Ends, loop_of_flagEnd hflag]

theorem ends_body {s t : Scan} (hflag : s.flagEnd = false) : s.Ends t ↔ s.body.Ends t := by
  constructor
  · rintro ⟨fuel, h⟩
    cases fuel with
    | zero => simp [loop, hflag] at h
    | succ fuel => exact ⟨fuel, by rwa [loop_succ_of_not_flagEnd hflag] at h⟩
  · rintro ⟨fuel, h⟩
    exact ⟨fuel + 1, by rwa [loop_succ_of_not_flagEnd hflag]⟩

/-- An iteration that changes nothing is repeated for ever. -/
theorem not_ends_of_body_eq {s t : Scan} (hflag : s.flagEnd = false) (hbody : s.body = s) :
    ¬ s.Ends t := by
  rintro ⟨fuel, h⟩
  induction fuel with
  | zero => simp [loop, hflag] at h
  | succ fuel ih =>
      rw [loop_succ_of_not_flagEnd hflag, hbody] at h
      exact ih h

end Scan

/-- Reads header lines up to the first line without a colon: the request with
the header lines stored, and what is unread behind that line. -/
def headerSection (request : HttpRequest) (unread : Bytes) : Option (HttpRequest × Bytes) :=
  match _h : crlf.cut unread with
  | none => none
  | some (line, rest) =>
      if colon ∈ line then headerSection (request.addHeaderLine line) rest else some (request, rest)
termination_by unread.length
decreasing_by exact crlf.length_lt_of_cut _h

theorem headerSection_of_none {unread : Bytes} (h : crlf.cut unread = none)
    (request : HttpRequest) :
    headerSection request unread = none := by
  rw [headerSection]
  split <;> simp_all

theorem headerSection_of_cut {unread line rest : Bytes} (h : crlf.cut unread = some (line, rest))
    (request : HttpRequest) :
    headerSection request unread =
      if colon ∈ line then headerSection (request.addHeaderLine line) rest
      else some (request, rest) := by
  rw [headerSection]
  split <;> simp_all

/-- The header section ends exactly when some complete line has no colon. -/
theorem isSome_headerSection (request : HttpRequest) (unread : Bytes) :
    (headerSection request unread).isSome ↔ ∃ line ∈ crlf.pieces unread, colon ∉ line := by
  induction request, unread using headerSection.induct with
  | case1 request unread h =>
      rw [headerSection_of_none h, crlf.pieces_of_free (crlf.cut_eq_none_iff.mp h)]
      simp
  | case2 request unread line rest h hcolon ih =>
      rw [headerSection_of_cut h, if_pos hcolon, ih, crlf.pieces_of_cut h]
      simp [hcolon]
  | case3 request unread line rest h hcolon =>
      rw [headerSection_of_cut h, if_neg hcolon, crlf.pieces_of_cut h]
      simp [hcolon]

/-- A header section as a client writes it. -/
theorem headerSection_join (request : HttpRequest) {lines : List Bytes}
    (hlines : ∀ line ∈ lines, colon ∈ line ∧ crlf.Free line) (rest : Bytes) :
    headerSection request (crlf.join lines ++ crlf.word ++ rest) =
      some (lines.foldl HttpRequest.addHeaderLine request, rest) := by
  induction lines generalizing request with
  | nil =>
      have hcut := crlf.cut_delimited (l := []) (by decide) rest
      rw [List.nil_append] at hcut
      rw [crlf.join_nil, List.nil_append, headerSection_of_cut hcut, if_neg (by simp)]
      rfl
  | cons line lines ih =>
      obtain ⟨hcolon, hfree⟩ := hlines line List.mem_cons_self
      have hcut := crlf.cut_delimited hfree (crlf.join lines ++ crlf.word ++ rest)
      rw [crlf.join_cons, List.append_assoc _ _ rest, List.append_assoc _ (crlf.join lines), ←
        List.append_assoc (crlf.join lines), headerSection_of_cut hcut, if_pos hcolon]
      exact ih _ fun other hother => hlines other (List.mem_cons_of_mem _ hother)

/-- The outcome of a call of the parser, if it has one.  A call is made in one of
the first two states. -/
def Scan.result (context : HttpContext) (unread : Bytes) : Option Scan :=
  match context.state with
  | .expectRequestLine =>
      match crlf.cut unread with
      | none => some ⟨context, unread, true, true⟩
      | some (line, rest) =>
          let request := (parseRequestLine context.request line).2
          if accepts line then
            (headerSection request rest).map fun parsed => ⟨⟨.done, parsed.1⟩, parsed.2, true, true⟩
          else some ⟨⟨.expectRequestLine, request⟩, unread, false, true⟩
  | .expectHeaders =>
      (headerSection context.request unread).map fun parsed =>
        ⟨⟨.done, parsed.1⟩, parsed.2, true, true⟩
  | .expectBody => none
  | .done => none

/-- What a call may come to: no line is complete, the request line is rejected, or the header
section is read to its end. -/
inductive Scan.Outcome (unread : Bytes) : HttpContext → Scan → Prop
  | noLine {request : HttpRequest} (hcut : crlf.cut unread = none) :
      Outcome unread ⟨.expectRequestLine, request⟩
        ⟨⟨.expectRequestLine, request⟩, unread, true, true⟩
  | rejected {request : HttpRequest} {line rest : Bytes}
      (hcut : crlf.cut unread = some (line, rest)) (haccepts : accepts line = false) :
      Outcome unread ⟨.expectRequestLine, request⟩
        ⟨⟨.expectRequestLine, (parseRequestLine request line).2⟩, unread, false, true⟩
  | accepted {request : HttpRequest} {line rest : Bytes} {parsed : HttpRequest × Bytes}
      (hcut : crlf.cut unread = some (line, rest)) (haccepts : accepts line = true)
      (hsection : headerSection (parseRequestLine request line).2 rest = some parsed) :
      Outcome unread ⟨.expectRequestLine, request⟩ ⟨⟨.done, parsed.1⟩, parsed.2, true, true⟩
  | headers {request : HttpRequest} {parsed : HttpRequest × Bytes}
      (hsection : headerSection request unread = some parsed) :
      Outcome unread ⟨.expectHeaders, request⟩ ⟨⟨.done, parsed.1⟩, parsed.2, true, true⟩

theorem Scan.outcome_of_result {context : HttpContext} {unread : Bytes} {t : Scan}
    (h : Scan.result context unread = some t) : Scan.Outcome unread context t := by
  obtain ⟨state, request⟩ := context
  cases state with
  | expectRequestLine =>
      cases hcut : crlf.cut unread with
      | none =>
          simp only [Scan.result, hcut] at h
          cases h
          exact .noLine hcut
      | some pair =>
          obtain ⟨line, rest⟩ := pair
          simp only [Scan.result, hcut] at h
          split at h
          · rename_i haccepts
            obtain ⟨parsed, hsection, rfl⟩ := Option.map_eq_some_iff.mp h
            exact .accepted hcut haccepts hsection
          · rename_i haccepts
            cases h
            exact .rejected hcut (by simpa using haccepts)
  | expectHeaders =>
      obtain ⟨parsed, hsection, rfl⟩ := Option.map_eq_some_iff.mp h
      exact .headers hsection
  | expectBody => cases h
  | done => cases h

/-- A call on an accepted line with its header section. -/
theorem Scan.result_of_section {request : HttpRequest} {unread line rest : Bytes}
    {parsed : HttpRequest × Bytes} (hcut : crlf.cut unread = some (line, rest))
    (haccepts : accepts line = true)
    (hsection : headerSection (parseRequestLine request line).2 rest = some parsed) :
    Scan.result ⟨.expectRequestLine, request⟩ unread =
      some ⟨⟨.done, parsed.1⟩, parsed.2, true, true⟩ := by
  simp [Scan.result, hcut, haccepts, hsection]

theorem Scan.ends_headers_iff (request : HttpRequest) (unread : Bytes) (t : Scan) :
    Scan.Ends ⟨⟨.expectHeaders, request⟩, unread, true, false⟩ t ↔
      (headerSection request unread).map
        (fun parsed => (⟨⟨.done, parsed.1⟩, parsed.2, true, true⟩ : Scan)) = some t := by
  induction request, unread using headerSection.induct with
  | case1 request unread h =>
      have hnever := Scan.not_ends_of_body_eq (t := t)
        (s := ⟨⟨.expectHeaders, request⟩, unread, true, false⟩) rfl (by simp [Scan.body, h])
      simp [headerSection_of_none h, hnever]
  | case2 request unread line rest h hcolon ih =>
      rw [headerSection_of_cut h, if_pos hcolon, ← ih, Scan.ends_body rfl]
      simp [Scan.body, h, hcolon]
  | case3 request unread line rest h hcolon =>
      rw [headerSection_of_cut h, if_neg hcolon, Scan.ends_body rfl]
      simp [Scan.body, h, hcolon, Scan.ends_of_flagEnd]

/-- The loop ends with the outcome of the call, and never when there is none. -/
theorem Scan.ends_iff (context : HttpContext) (unread : Bytes) (t : Scan) :
    Scan.Ends ⟨context, unread, true, false⟩ t ↔ Scan.result context unread = some t := by
  obtain ⟨state, request⟩ := context
  cases state with
  | expectRequestLine =>
      cases hcut : crlf.cut unread with
      | none => simp [Scan.ends_body, Scan.body, hcut, Scan.ends_of_flagEnd, Scan.result]
      | some pair =>
          obtain ⟨line, rest⟩ := pair
          by_cases haccepts : accepts line
          · have hheaders := Scan.ends_headers_iff (parseRequestLine request line).2 rest t
            rw [Scan.ends_body rfl]
            simpa [Scan.body, hcut, haccepts, Scan.result] using hheaders
          · rw [Scan.ends_body rfl]
            simp [Scan.body, hcut, haccepts, Scan.ends_of_flagEnd, Scan.result]
  | expectHeaders => exact Scan.ends_headers_iff request unread t
  | expectBody => simpa [Scan.result] using Scan.not_ends_of_body_eq rfl rfl
  | done => simpa [Scan.result] using Scan.not_ends_of_body_eq rfl rfl

/-! ## Calls on a buffer -/

/-- A call that has an outcome returns it. -/
theorem HttpContext.parseRequest_of_result (context : HttpContext) (buf : Buffer) {t : Scan}
    (h : Scan.result context buf.payload = some t) :
    ∃ fuel after, context.parseRequest fuel buf = some (t.ok, t.context, after) ∧
      after.payload = t.unread := by
  obtain ⟨fuel, hloop⟩ := (Scan.ends_iff context buf.payload t).mpr h
  have hscan := Parse.map_scan_loop fuel ⟨context, buf, true, false⟩
  obtain ⟨p, hp, rfl⟩ := Option.map_eq_some_iff.mp (hscan.trans hloop)
  refine ⟨fuel, p.buf, ?_, rfl⟩
  rw [HttpContext.parseRequest, hp]
  rfl

/-- What a call returns is its outcome. -/
theorem HttpContext.result_of_parseRequest {fuel : ℕ} {context next : HttpContext}
    {buf after : Buffer} {ok : Bool}
    (h : context.parseRequest fuel buf = some (ok, next, after)) :
    ∃ flagEnd, Scan.result context buf.payload = some ⟨next, after.payload, ok, flagEnd⟩ := by
  obtain ⟨p, hp, hpair⟩ := Option.map_eq_some_iff.mp h
  have hscan := Parse.map_scan_loop fuel ⟨context, buf, true, false⟩
  rw [hp] at hscan
  cases hpair
  exact ⟨p.flagEnd, (Scan.ends_iff context buf.payload _).mp ⟨fuel, hscan.symm⟩⟩

end YxAlpha
