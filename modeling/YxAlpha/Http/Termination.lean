import YxAlpha.Http.Server

/-!
# When the parser returns

The loop of `ParseRequest` leaves on a rejected request line, on a missing
request line and at the end of the header section.  It does not leave on a
missing header line: the branch that should set the exit flag clears it, so a
call that has accepted a request line and runs out of complete lines before the
header section ends repeats that branch for ever.

`Settles` is the exact condition on the unread bytes of one call.  For a whole
stream, `Settled` carries the bytes that each call leaves unread over to the
next one; every call starts in `expectRequestLine`, since a call that would leave
the parser inside a header section does not return.
-/

namespace YxAlpha

/-- A call that expects a request line returns: there is no complete line yet,
or the first one is rejected, or a later complete line has no colon. -/
def Settles (unread : Bytes) : Prop :=
  match crlf.pieces unread with
  | [] => True
  | line :: fields => accepts line = true → ∃ field ∈ fields, colon ∉ field

/-- What follows the first complete line without a colon. -/
def behindHeaders (unread : Bytes) : Bytes :=
  match _h : crlf.cut unread with
  | none => unread
  | some (line, rest) => if colon ∈ line then behindHeaders rest else rest
termination_by unread.length
decreasing_by exact crlf.length_lt_of_cut _h

/-- What a call that expects a request line leaves unread. -/
def leftover (unread : Bytes) : Bytes :=
  match crlf.cut unread with
  | none => unread
  | some (line, rest) => if accepts line then behindHeaders rest else unread

/-- Every call on the chunks finds bytes on which it returns. -/
def Settled : Bytes → List Bytes → Prop
  | _, [] => True
  | unread, chunk :: chunks =>
      Settles (unread ++ chunk) ∧ Settled (leftover (unread ++ chunk)) chunks

/-! ## One call -/

theorem behindHeaders_of_cut {unread line rest : Bytes} (h : crlf.cut unread = some (line, rest)) :
    behindHeaders unread = if colon ∈ line then behindHeaders rest else rest := by
  rw [behindHeaders]
  split <;> simp_all

/-- A header section that ends leaves what is behind it. -/
theorem snd_headerSection {request : HttpRequest} {unread : Bytes} {parsed : HttpRequest × Bytes}
    (hparsed : headerSection request unread = some parsed) : parsed.2 = behindHeaders unread := by
  induction request, unread using headerSection.induct with
  | case1 request unread h =>
      rw [headerSection_of_none h] at hparsed
      cases hparsed
  | case2 request unread line rest h hcolon ih =>
      rw [headerSection_of_cut h, if_pos hcolon] at hparsed
      rw [behindHeaders_of_cut h, if_pos hcolon]
      exact ih hparsed
  | case3 request unread line rest h hcolon =>
      rw [headerSection_of_cut h, if_neg hcolon] at hparsed
      cases hparsed
      rw [behindHeaders_of_cut h, if_neg hcolon]

theorem isSome_result_iff (request : HttpRequest) (unread : Bytes) :
    (Scan.result ⟨.expectRequestLine, request⟩ unread).isSome ↔ Settles unread := by
  cases hcut : crlf.cut unread with
  | none =>
      have hpieces := crlf.pieces_of_free (crlf.cut_eq_none_iff.mp hcut)
      simp [Scan.result, hcut, Settles, hpieces]
  | some pair =>
      obtain ⟨line, rest⟩ := pair
      have hheaders := isSome_headerSection (parseRequestLine request line).2 rest
      by_cases haccepts : accepts line
      · simp [Scan.result, hcut, Settles, crlf.pieces_of_cut hcut, haccepts, hheaders]
      · simp [Scan.result, hcut, Settles, crlf.pieces_of_cut hcut, haccepts]

/-- A call that returns leaves the parser expecting a request line. -/
theorem finish_of_result {s : Session} {unread : Bytes} {t : Scan}
    (hstate : s.context.state = .expectRequestLine)
    (h : Scan.result s.context unread = some t) :
    (s.finish t).context.state = .expectRequestLine ∧ (s.finish t).unread = leftover unread := by
  obtain ⟨⟨state, request⟩, before, calls⟩ := s
  obtain rfl : state = .expectRequestLine := hstate
  cases Scan.outcome_of_result h with
  | noLine hcut => simp [Session.finish, respond, HttpContext.isDone, leftover, hcut]
  | rejected hcut haccepts =>
      simp [Session.finish, respond, HttpContext.isDone, leftover, hcut, haccepts]
  | accepted hcut haccepts hsection =>
      simp [Session.finish, respond, HttpContext.isDone, HttpContext.reset, leftover, hcut,
        haccepts, snd_headerSection hsection]

/-! ## A whole stream -/

theorem Session.isSome_run_iff {s : Session} (hstate : s.context.state = .expectRequestLine)
    (chunks : List Bytes) : (s.run chunks).isSome ↔ Settled s.unread chunks := by
  induction chunks generalizing s with
  | nil => simp [Session.run, Settled]
  | cons chunk chunks ih =>
      have hcall := isSome_result_iff s.context.request (s.unread ++ chunk)
      rw [show (⟨.expectRequestLine, s.context.request⟩ : HttpContext) = s.context by
        rw [← hstate]] at hcall
      rw [Session.run, Settled, ← hcall]
      cases hresult : Scan.result s.context (s.unread ++ chunk) with
      | none => simp
      | some t =>
          obtain ⟨hnext, hunread⟩ := finish_of_result hstate hresult
          rw [Option.bind_some, ih hnext, hunread]
          simp

/-- A call on a buffer returns exactly when it has an outcome. -/
theorem exists_parseRequest_isSome_iff (context : HttpContext) (buf : Buffer) :
    (∃ fuel, (context.parseRequest fuel buf).isSome) ↔
      (Scan.result context buf.payload).isSome := by
  have hloop (fuel : ℕ) : (context.parseRequest fuel buf).isSome ↔
      (Scan.loop fuel ⟨context, buf.payload, true, false⟩).isSome := by
    have hscan := Parse.map_scan_loop fuel ⟨context, buf, true, false⟩
    rw [show Parse.scan ⟨context, buf, true, false⟩ = ⟨context, buf.payload, true, false⟩ from rfl]
      at hscan
    rw [HttpContext.parseRequest, ← hscan]
    simp
  simp only [hloop, Option.isSome_iff_exists, ← Scan.ends_iff, Scan.Ends]
  exact exists_comm

/-- **When the parser returns.**  From either state a call can start in, and for
every content of the buffer, the loop ends exactly on the condition above; on a
connection, every call on a stream of chunks returns exactly when the stream is
`Settled`. -/
theorem parseRequest_returns_iff (request : HttpRequest) (buf : Buffer) (chunks : List Bytes) :
    ((∃ fuel, (HttpContext.parseRequest fuel ⟨.expectRequestLine, request⟩ buf).isSome) ↔
      Settles buf.payload) ∧
    ((∃ fuel, (HttpContext.parseRequest fuel ⟨.expectHeaders, request⟩ buf).isSome) ↔
      ∃ field ∈ crlf.pieces buf.payload, colon ∉ field) ∧
    ((∃ fuel, (HttpConnection.new.run fuel chunks).isSome) ↔ Settled [] chunks) := by
  refine ⟨?_, ?_, ?_⟩
  · rw [exists_parseRequest_isSome_iff, isSome_result_iff]
  · rw [exists_parseRequest_isSome_iff, ← isSome_headerSection request]
    simp [Scan.result]
  · rw [HttpConnection.exists_run_isSome_iff, HttpConnection.session_new]
    exact Session.isSome_run_iff rfl chunks

/-- A first chunk that stops inside the header section: the call on it never
returns. -/
theorem parseRequest_hangs :
    (∀ chunk ∈ [ascii "GET / HTTP/1.1\r\nHost: a\r\n"], chunk ≠ []) ∧
      ¬ ∃ fuel, (HttpConnection.new.run fuel [ascii "GET / HTTP/1.1\r\nHost: a\r\n"]).isSome := by
  refine ⟨by decide, ?_⟩
  have hline : crlf.cut (ascii "GET / HTTP/1.1\r\nHost: a\r\n") =
      some (ascii "GET / HTTP/1.1", ascii "Host: a\r\n") := by decide
  have hfield : crlf.cut (ascii "Host: a\r\n") = some (ascii "Host: a", []) := by decide
  have hrest : crlf.cut ([] : Bytes) = none := by decide
  rw [HttpConnection.exists_run_isSome_iff, HttpConnection.session_new,
    Session.isSome_run_iff rfl, Settled]
  simp only [Session.new, List.nil_append, Settles, crlf.pieces_of_cut hline,
    crlf.pieces_of_cut hfield, crlf.pieces_of_free (crlf.cut_eq_none_iff.mp hrest)]
  rintro ⟨hfields, _⟩
  exact absurd (hfields (by decide)) (by decide)

end YxAlpha
