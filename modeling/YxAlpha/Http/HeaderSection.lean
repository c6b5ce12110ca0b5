import YxAlpha.Http.RequestLine

/-!
# The end of the header section

A request whose header lines all have a colon is read up to its empty line, whatever follows
(`parseRequest_complete`).  The parser does not look for the empty line, though: it ends the
section at the first line without a colon, so what moves it to `done` may be a line that is
not empty, and the rest of that request is then left for the next call
(`ends_at_blank_iff`).
-/

namespace YxAlpha

/-- The last complete line of what a call has consumed, from what it found and what it left. -/
def lastLine (found left : Bytes) : Option Bytes :=
  (crlf.pieces (found.take (found.length - left.length))).getLast?

/-- The first of the lines without a colon, if there is one, is empty. -/
def BlankFirst (lines : List Bytes) : Prop :=
  ∀ bare, lines.find? (fun line => colon ∉ line) = some bare → bare = []

/-- The header lines that a call comes to have an empty line before any other without a
colon. -/
def BlankEnds (state : ParseState) (unread : Bytes) : Prop :=
  match state with
  | .expectRequestLine =>
      match crlf.pieces unread with
      | [] => True
      | line :: fields => accepts line = true → BlankFirst fields
  | .expectHeaders => BlankFirst (crlf.pieces unread)
  | .expectBody => True
  | .done => True

/-! ## Complete requests -/

theorem headers_parseRequestLine (request : HttpRequest) (line : Bytes) :
    (parseRequestLine request line).2.headers = request.headers := by
  unfold parseRequestLine
  dsimp only
  split_ifs <;> rfl

/-- **A complete request is parsed in one call**, and nothing behind it is touched. -/
theorem parseRequest_complete (line : Bytes) (fields : List Bytes) (rest : Bytes) (buf : Buffer)
    (hfree : crlf.Free line) (haccepted : (parseRequestLine .new line).1 = true)
    (hfields : ∀ field ∈ fields, colon ∈ field ∧ crlf.Free field)
    (hbuf : buf.payload = line ++ crlf.word ++ (crlf.join fields ++ crlf.word ++ rest)) :
    ∃ fuel context after, HttpContext.new.parseRequest fuel buf = some (true, context, after) ∧
      context.state = .done ∧ after.payload = rest ∧
      ∀ name, context.request.headers[name]? =
        ((fields.filter fun field => fieldOf field = name).getLast?).map valueOf := by
  have hcut : crlf.cut buf.payload = some (line, crlf.join fields ++ crlf.word ++ rest) := by
    rw [hbuf]
    exact crlf.cut_delimited hfree _
  have hsection := headerSection_join (parseRequestLine .new line).2 hfields rest
  have hresult := Scan.result_of_section hcut haccepted hsection
  obtain ⟨fuel, after, hparse, hrest⟩ := HttpContext.parseRequest_of_result .new buf hresult
  refine ⟨fuel, _, after, hparse, rfl, hrest, ?_⟩
  intro name
  have hempty : (parseRequestLine .new line).2.headers = ∅ := headers_parseRequestLine .new line
  rw [headers_foldl_addHeaderLine, hempty]
  exact getElem?_storeHeaders_empty fields name

/-- A name that comes twice, a value that ends in a CR, and bytes behind the request. -/
theorem parseRequest_complete_twice : ∃ fuel context after,
    HttpContext.new.parseRequest fuel (Buffer.new.append
        (ascii "GET / HTTP/1.1\r\nA: 1\r\nB:x\r\r\nA:  2 \r\n\r\nPUT")) =
      some (true, context, after) ∧
    context.state = .done ∧ after.payload = ascii "PUT" ∧
      context.request.headers[ascii "A"]? = some (ascii "2") := by
  obtain ⟨fuel, context, after, hparse, hstate, hleft, hheaders⟩ :=
    parseRequest_complete (ascii "GET / HTTP/1.1") [ascii "A: 1", ascii "B:x\r", ascii "A:  2 "]
      (ascii "PUT") (Buffer.new.append
        (ascii "GET / HTTP/1.1\r\nA: 1\r\nB:x\r\r\nA:  2 \r\n\r\nPUT"))
      (by decide) (by decide) (by decide)
      (by
        rw [Buffer.payload_append, Buffer.payload_new]
        decide)
  refine ⟨fuel, context, after, hparse, hstate, hleft, ?_⟩
  rw [hheaders]
  decide

/-! ## The line that ends the section -/

/-- What a header section that ends has consumed. -/
theorem headerSection_consumed {request : HttpRequest} {unread : Bytes}
    {parsed : HttpRequest × Bytes} (h : headerSection request unread = some parsed) :
    ∃ fields bare, unread = crlf.join (fields ++ [bare]) ++ parsed.2 ∧
      (∀ field ∈ fields ++ [bare], crlf.Free field) ∧
      (crlf.pieces unread).find? (fun line => colon ∉ line) = some bare := by
  induction request, unread using headerSection.induct with
  | case1 request unread hcut =>
      rw [headerSection_of_none hcut] at h
      cases h
  | case2 request unread line rest hcut hcolon ih =>
      rw [headerSection_of_cut hcut, if_pos hcolon] at h
      obtain ⟨fields, bare, hrest, hfree, hfind⟩ := ih h
      obtain ⟨hunread, hline⟩ := crlf.cut_eq_some hcut
      refine ⟨line :: fields, bare, ?_, ?_, ?_⟩
      · rw [hunread, hrest, List.cons_append, Delimiter.join_cons, List.append_assoc (_ ++ _)]
      · rw [List.cons_append, List.forall_mem_cons]
        exact ⟨hline, hfree⟩
      · rw [crlf.pieces_of_cut hcut, List.find?_cons_of_neg (by simpa using hcolon), hfind]
  | case3 request unread line rest hcut hcolon =>
      rw [headerSection_of_cut hcut, if_neg hcolon] at h
      cases h
      obtain ⟨hunread, hline⟩ := crlf.cut_eq_some hcut
      refine ⟨[], line, ?_, ?_, ?_⟩
      · rw [hunread]
        simp
      · simpa using hline
      · rw [crlf.pieces_of_cut hcut, List.find?_cons_of_pos (by simpa using hcolon)]

theorem lastLine_join {lines : List Bytes} {bare left : Bytes}
    (hfree : ∀ line ∈ lines ++ [bare], crlf.Free line) :
    lastLine (crlf.join (lines ++ [bare]) ++ left) left = some bare := by
  have hempty : crlf.pieces [] = [] := crlf.pieces_of_free (by decide)
  have hpieces := crlf.pieces_join_append hfree []
  rw [List.append_nil, hempty, List.append_nil] at hpieces
  rw [lastLine, List.length_append, Nat.add_sub_cancel, List.take_left, hpieces,
    List.getLast?_append]
  rfl

theorem ends_headers_iff {request : HttpRequest} {unread : Bytes} {parsed : HttpRequest × Bytes}
    (front : List Bytes) (hfront : ∀ line ∈ front, crlf.Free line)
    (h : headerSection request unread = some parsed) :
    lastLine (crlf.join front ++ unread) parsed.2 = some [] ↔ BlankFirst (crlf.pieces unread) := by
  obtain ⟨fields, bare, hunread, hfree, hfind⟩ := headerSection_consumed h
  have hlast : lastLine (crlf.join front ++ unread) parsed.2 = some bare := by
    have hjoin : crlf.join front ++ unread =
        crlf.join ((front ++ fields) ++ [bare]) ++ parsed.2 := by
      calc crlf.join front ++ unread
          = (crlf.join front ++ crlf.join (fields ++ [bare])) ++ parsed.2 := by
            rw [hunread, List.append_assoc]
        _ = crlf.join ((front ++ fields) ++ [bare]) ++ parsed.2 := by
            rw [← crlf.join_append, List.append_assoc]
    rw [hjoin]
    apply lastLine_join
    rw [List.append_assoc, List.forall_mem_append]
    exact ⟨hfront, hfree⟩
  rw [hlast, BlankFirst, hfind]
  simp

/-- **What ends the header section**: from every state and on every buffer on which the call
returns, a call that comes to `done` has consumed an empty line last exactly if the header
lines it comes to have their empty line before any other without a colon. -/
theorem ends_at_blank_iff {fuel : ℕ} {context next : HttpContext} {buf after : Buffer} {ok : Bool}
    (h : context.parseRequest fuel buf = some (ok, next, after)) :
    (next.state = .done → lastLine buf.payload after.payload = some []) ↔
      BlankEnds context.state buf.payload := by
  obtain ⟨flagEnd, hresult⟩ := HttpContext.result_of_parseRequest h
  have houtcome := Scan.outcome_of_result hresult
  generalize after.payload = left at houtcome
  cases houtcome with
  | noLine hcut =>
      have hpieces := crlf.pieces_of_free (crlf.cut_eq_none_iff.mp hcut)
      simp [BlankEnds, hpieces]
  | rejected hcut haccepts => simp [BlankEnds, crlf.pieces_of_cut hcut, haccepts]
  | accepted hcut haccepts hsection =>
      obtain ⟨hpayload, hfree⟩ := crlf.cut_eq_some hcut
      have hends := ends_headers_iff [_] (by simpa using hfree) hsection
      rw [Delimiter.join_cons, Delimiter.join_nil, List.append_nil, ← hpayload] at hends
      simp only [BlankEnds, crlf.pieces_of_cut hcut, haccepts, forall_true_left, hends]
  | headers hsection =>
      have hends := ends_headers_iff [] (by simp) hsection
      rw [Delimiter.join_nil, List.nil_append] at hends
      simp only [BlankEnds, forall_true_left, hends]

theorem ends_at_blank_iff_get : ∃ fuel next after,
    HttpContext.new.parseRequest fuel (Buffer.new.append (ascii "GET / HTTP/1.1\r\n\r\n")) =
      some (true, next, after) ∧ next.state = .done ∧
    lastLine (Buffer.new.append (ascii "GET / HTTP/1.1\r\n\r\n")).payload after.payload =
      some [] := by
  have hline : crlf.cut (Buffer.new.append (ascii "GET / HTTP/1.1\r\n\r\n")).payload =
      some (ascii "GET / HTTP/1.1", ascii "\r\n") := by
    rw [Buffer.payload_append, Buffer.payload_new]
    decide
  have hblank : crlf.cut (ascii "\r\n") = some ([], []) := by decide
  have hsection (request : HttpRequest) : headerSection request (ascii "\r\n") =
      some (request, []) := headerSection_of_cut hblank request
  obtain ⟨fuel, after, hparse, -⟩ := HttpContext.parseRequest_of_result .new _
    (Scan.result_of_section hline (by decide) (hsection _))
  refine ⟨fuel, _, after, hparse, rfl, (ends_at_blank_iff hparse).mpr ?_ rfl⟩
  simp only [BlankEnds, HttpContext.new, crlf.pieces_of_cut hline, crlf.pieces_of_cut hblank]
  intro _ bare hbare
  exact (Option.some.inj hbare).symm

/-- The line `foo` ends the header section; the header line behind it is left to be read as
the next request. -/
theorem bare_line_completes : ∃ fuel next after,
    HttpContext.new.parseRequest fuel
        (Buffer.new.append (ascii "GET / HTTP/1.1\r\nfoo\r\nHost: a\r\n\r\n")) =
      some (true, next, after) ∧
    next.state = .done ∧ after.payload = ascii "Host: a\r\n\r\n" ∧
      lastLine (Buffer.new.append (ascii "GET / HTTP/1.1\r\nfoo\r\nHost: a\r\n\r\n")).payload
        after.payload = some (ascii "foo") := by
  have hpayload : (Buffer.new.append
      (ascii "GET / HTTP/1.1\r\nfoo\r\nHost: a\r\n\r\n")).payload =
      crlf.join ([ascii "GET / HTTP/1.1"] ++ [ascii "foo"]) ++ ascii "Host: a\r\n\r\n" := by
    rw [Buffer.payload_append, Buffer.payload_new]
    decide
  have hline : crlf.cut (Buffer.new.append
      (ascii "GET / HTTP/1.1\r\nfoo\r\nHost: a\r\n\r\n")).payload =
      some (ascii "GET / HTTP/1.1", ascii "foo\r\nHost: a\r\n\r\n") := by
    rw [hpayload]
    decide
  have hbare : crlf.cut (ascii "foo\r\nHost: a\r\n\r\n") =
      some (ascii "foo", ascii "Host: a\r\n\r\n") := by decide
  have hsection (request : HttpRequest) :
      headerSection request (ascii "foo\r\nHost: a\r\n\r\n") =
        some (request, ascii "Host: a\r\n\r\n") :=
    (headerSection_of_cut hbare request).trans (if_neg (by decide))
  obtain ⟨fuel, after, hparse, hleft⟩ := HttpContext.parseRequest_of_result .new _
    (Scan.result_of_section hline (by decide) (hsection _))
  refine ⟨fuel, _, after, hparse, rfl, hleft, ?_⟩
  rw [hpayload, hleft]
  exact lastLine_join (by decide)

end YxAlpha
