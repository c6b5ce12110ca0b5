import YxAlpha.Http.Response
import YxAlpha.Library.SelfDelimiting

/-!
# Responses on a connection that is kept alive

The client of such a connection finds the end of a response from the response itself.  What
`AppendToBuffer` writes is a list of lines that are not empty, an empty line, and the body,
whose length is in the second line (`bytes_eq`); the lines tell everything but the body.  So
no response is a prefix of another, and the responses written behind one another can be told
apart (`keepAlive_delimited`).
-/

namespace YxAlpha

/-- A text without CR and LF. -/
def Plain (text : Bytes) : Prop := ∀ c ∈ text, c ≠ 13 ∧ c ≠ 10

instance (text : Bytes) : Decidable (Plain text) :=
  List.decidableBAll _ text

theorem Plain.append {a b : Bytes} (ha : Plain a) (hb : Plain b) : Plain (a ++ b) := by
  intro c hc
  rcases List.mem_append.mp hc with h | h
  · exact ha c h
  · exact hb c h

theorem Plain.free {text : Bytes} (h : Plain text) : crlf.Free text := by
  intro hword
  exact (h 13 (hword.subset (by simp))).1 rfl

theorem plain_decimal (n : ℕ) : Plain (decimal n) := by
  intro c hc
  have hdigit := mem_decimal hc
  constructor
  · rintro rfl
    simp at hdigit
  · rintro rfl
    simp at hdigit

namespace HttpResponse

/-- What is asked of a response on a connection that is kept alive.  The bound on the body is
what the buffer of `snprintf` has room for. -/
structure KeepAlive (response : HttpResponse) : Prop where
  stays : response.closeConnection = false
  message : Plain response.statusMessage
  headers : ∀ key value, response.headers[key]? = some value →
    Plain key ∧ colon ∉ key ∧ Plain value
  body : response.body.length < 10 ^ 13

/-- The lines of the response up to the empty one. -/
def lines (response : HttpResponse) : List Bytes :=
  (ascii "HTTP/1.1 " ++ (decimal response.statusCode.toNat ++ space :: response.statusMessage)) ::
  (ascii "Content-Length: " ++ decimal response.body.length) ::
  ascii "Connection: Keep-Alive" ::
  response.headers.toList.map fun header => header.1 ++ colon :: space :: header.2

/-- Responses written one behind the other. -/
def appendAll (output : Buffer) (responses : List HttpResponse) : Buffer :=
  responses.foldl (fun output response => response.appendToBuffer output) output

variable {response : HttpResponse}

/-! ## The text of a response -/

theorem length_statusLine (code : HttpStatusCode) :
    (ascii "HTTP/1.1 " ++ decimal code.toNat ++ ascii " ").length ≤ sizeofBuf - 1 := by
  cases code <;> decide

theorem length_contentLength {n : ℕ} (hn : n < 10 ^ 13) :
    (ascii "Content-Length: " ++ decimal n ++ ascii "\r\n").length ≤ sizeofBuf - 1 := by
  have hdigits := length_decimal_le (k := 13) (by decide) hn
  have hname : (ascii "Content-Length: ").length = 16 := by decide
  have hend : (ascii "\r\n").length = 2 := by decide
  rw [List.length_append, List.length_append, hname, hend, sizeofBuf]
  omega

theorem flatten_headers (headers : List (Bytes × Bytes)) :
    (headers.flatMap fun header => [header.1, ascii ": ", header.2, crlf.word]).flatten =
      crlf.join (headers.map fun header => header.1 ++ colon :: space :: header.2) := by
  induction headers with
  | nil => rfl
  | cons header headers ih =>
      have hcolon : ascii ": " = [colon, space] := rfl
      rw [List.flatMap_cons, List.flatten_append, ih, List.map_cons, Delimiter.join_cons, hcolon]
      simp

theorem KeepAlive.bytes_eq (h : response.KeepAlive) :
    response.bytes = crlf.join response.lines ++ crlf.word ++ response.body := by
  have hspace : ascii " " = [space] := rfl
  have hend : ascii "\r\n" = crlf.word := rfl
  have hconnection : ascii "Connection: Keep-Alive\r\n" =
      ascii "Connection: Keep-Alive" ++ crlf.word := rfl
  rw [bytes, pieces, List.take_of_length_le (length_statusLine _),
    List.take_of_length_le (length_contentLength h.body), h.stays]
  simp only [Bool.false_eq_true, if_false, List.flatten_append, flatten_headers, lines, hspace,
    hend, hconnection, Delimiter.join_cons, List.flatten_cons, List.flatten_nil, List.append_nil,
    List.append_assoc, List.cons_append, List.nil_append]

theorem KeepAlive.mem_headers (h : response.KeepAlive) {header : Bytes × Bytes}
    (hmem : header ∈ response.headers.toList) :
    Plain header.1 ∧ colon ∉ header.1 ∧ Plain header.2 :=
  h.headers _ _ (Std.ExtTreeMap.mem_toList_iff_getElem?_eq_some.mp hmem)

theorem KeepAlive.lines_ok (h : response.KeepAlive) :
    ∀ line ∈ response.lines, crlf.Free line ∧ line ≠ [] := by
  have hversion : Plain (ascii "HTTP/1.1 ") := by decide
  have hlength : Plain (ascii "Content-Length: ") := by decide
  have hconnection : Plain (ascii "Connection: Keep-Alive") := by decide
  have hspace : Plain [space] := by decide
  have hcolon : Plain [colon, space] := by decide
  intro line hline
  simp only [lines, List.mem_cons, List.mem_map] at hline
  rcases hline with rfl | rfl | rfl | ⟨header, hmem, rfl⟩
  · have hcode := (plain_decimal response.statusCode.toNat).append (hspace.append h.message)
    exact ⟨(hversion.append hcode).free, by simp [ascii]⟩
  · exact ⟨(hlength.append (plain_decimal _)).free, by simp [ascii]⟩
  · exact ⟨hconnection.free, by simp [ascii]⟩
  · obtain ⟨hkey, -, hvalue⟩ := h.mem_headers hmem
    exact ⟨(hkey.append (hcolon.append hvalue)).free, by simp⟩

/-! ## What the lines tell -/

theorem toNat_injective : Function.Injective HttpStatusCode.toNat := by
  intro a b h
  cases a <;> cases b <;> first | rfl | cases h

theorem headers_of_lines {first second : List (Bytes × Bytes)}
    (hfirst : ∀ header ∈ first, colon ∉ header.1) (hsecond : ∀ header ∈ second, colon ∉ header.1)
    (heq : first.map (fun header => header.1 ++ colon :: space :: header.2) =
      second.map fun header => header.1 ++ colon :: space :: header.2) : first = second := by
  induction first generalizing second with
  | nil => exact (List.map_eq_nil_iff.mp heq.symm).symm
  | cons header first ih =>
      cases second with
      | nil => cases heq
      | cons other second =>
          rw [List.forall_mem_cons] at hfirst hsecond
          obtain ⟨hline, hrest⟩ := List.cons.inj heq
          obtain ⟨hkey, hvalue⟩ := Delimiter.selfDelimiting_letter colon header.1 other.1 hfirst.1
            hsecond.1 (space :: header.2) (space :: other.2) (by simpa using hline)
          rw [ih hfirst.2 hsecond.2 hrest, Prod.ext hkey (List.cons.inj hvalue).2]

theorem space_not_mem_decimal (n : ℕ) : space ∉ decimal n := by
  intro h
  have hdigit := mem_decimal h
  simp [space] at hdigit

/-- The lines tell all of the response but its body, and the length of that. -/
theorem eq_of_lines {first second : HttpResponse} (hfirst : first.KeepAlive)
    (hsecond : second.KeepAlive) (hlines : first.lines = second.lines) :
    first.body.length = second.body.length ∧ (first.body = second.body → first = second) := by
  simp only [lines, List.cons.injEq, true_and, List.append_cancel_left_eq] at hlines
  obtain ⟨hstatus, hlength, hheaders⟩ := hlines
  have hsize := decimal_injective hlength
  obtain ⟨hcode, hmessage⟩ := Delimiter.selfDelimiting_letter space _ _
    (space_not_mem_decimal first.statusCode.toNat) (space_not_mem_decimal second.statusCode.toNat)
    first.statusMessage second.statusMessage (by simpa using hstatus)
  have hmap : first.headers = second.headers := by
    apply Std.ExtTreeMap.toList_inj.mp
    exact headers_of_lines (fun _ hmem => (hfirst.mem_headers hmem).2.1)
      (fun _ hmem => (hsecond.mem_headers hmem).2.1) hheaders
  refine ⟨hsize, ?_⟩
  intro hbody
  have hcloses := hfirst.stays.trans hsecond.stays.symm
  have hcodes := toNat_injective (decimal_injective hcode)
  cases first
  cases second
  simp_all

/-! ## Responses in a stream -/

/-- The end of a response is found from its lines. -/
theorem selfDelimiting_bytes : SelfDelimiting KeepAlive bytes := by
  have hcode : SelfDelimiting KeepAlive fun response =>
      (crlf.join response.lines ++ crlf.word) ++ response.body := by
    apply SelfDelimiting.dependent crlf.selfDelimiting_paragraph
    · intro response h
      exact h.lines_ok
    · intro lines
      apply SelfDelimiting.sized
      · rintro first second ⟨hfirst, hlines⟩ ⟨hsecond, rfl⟩
        exact (eq_of_lines hfirst hsecond hlines).1
      · rintro first second ⟨hfirst, hlines⟩ ⟨hsecond, rfl⟩ hbody
        exact (eq_of_lines hfirst hsecond hlines).2 hbody
  intro first second hfirst hsecond s t heq
  rw [hfirst.bytes_eq, hsecond.bytes_eq] at heq
  exact hcode first second hfirst hsecond s t heq

theorem payload_appendAll (output : Buffer) (responses : List HttpResponse) :
    (appendAll output responses).payload = output.payload ++ responses.flatMap bytes := by
  induction responses generalizing output with
  | nil => simp [appendAll]
  | cons response responses ih =>
      show (appendAll (response.appendToBuffer output) responses).payload = _
      rw [ih, payload_appendToBuffer, List.flatMap_cons, List.append_assoc]

/-- **Responses on a connection that is kept alive delimit themselves**: none is a prefix of
another, and what has been written to a connection tells which responses it was. -/
theorem keepAlive_delimited {first second : HttpResponse} (output : Buffer)
    (sent received : List HttpResponse) (hfirst : first.KeepAlive) (hsecond : second.KeepAlive)
    (hsent : ∀ response ∈ sent, response.KeepAlive)
    (hreceived : ∀ response ∈ received, response.KeepAlive) :
    (first ≠ second →
      ¬ (first.appendToBuffer .new).payload <+: (second.appendToBuffer .new).payload) ∧
    ((appendAll output sent).payload = (appendAll output received).payload → sent = received) := by
  constructor
  · intro hne
    rw [payload_appendToBuffer, payload_appendToBuffer, Buffer.payload_new, List.nil_append,
      List.nil_append]
    exact selfDelimiting_bytes.not_isPrefix hfirst hsecond hne
  · intro heq
    rw [payload_appendAll, payload_appendAll, List.append_cancel_left_eq] at heq
    refine selfDelimiting_bytes.flatMap_inj ?_ hsent hreceived heq
    intro response h hempty
    rw [h.bytes_eq] at hempty
    simp at hempty

/-- A response with one header of its own. -/
def served (body : Bytes) : HttpResponse where
  headers := (∅ : Headers).insert (ascii "Server") (ascii "Yxalp")
  statusCode := .ok
  statusMessage := ascii "OK"
  closeConnection := false
  body := body

theorem keepAlive_served (body : Bytes) (hbody : body.length < 10 ^ 13) :
    (served body).KeepAlive where
  stays := rfl
  message := show Plain (ascii "OK") by decide
  headers key value h := by
    simp only [served, Std.ExtTreeMap.getElem?_insert] at h
    split at h
    · rename_i hkey
      rw [← Std.LawfulEqCmp.eq_of_compare hkey, ← Option.some.inj h]
      exact ⟨by decide, by decide, by decide⟩
    · simp at h
  body := hbody

/-- The body of the second response begins with that of the first. -/
theorem keepAlive_delimited_bodies :
    ¬ ((served (ascii "a")).appendToBuffer .new).payload <+:
        ((served (ascii "a\r\n")).appendToBuffer .new).payload ∧
      (appendAll .new [served (ascii "a"), served (ascii "a\r\n")]).payload ≠
        (appendAll .new [served (ascii "a\r\n"), served (ascii "a")]).payload := by
  have hfirst := keepAlive_served (ascii "a") (by decide)
  have hsecond := keepAlive_served (ascii "a\r\n") (by decide)
  have hne : served (ascii "a") ≠ served (ascii "a\r\n") := by
    intro h
    exact absurd (congrArg HttpResponse.body h) (by decide)
  obtain ⟨hfront, hstream⟩ := keepAlive_delimited .new
    [served (ascii "a"), served (ascii "a\r\n")] [served (ascii "a\r\n"), served (ascii "a")]
    hfirst hsecond
    (by simp [hfirst, hsecond]) (by simp [hfirst, hsecond])
  refine ⟨hfront hne, ?_⟩
  intro heq
  exact hne (List.cons.inj (hstream heq)).1

end HttpResponse

end YxAlpha
