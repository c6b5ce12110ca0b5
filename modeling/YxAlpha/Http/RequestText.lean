import YxAlpha.Http.RequestLine

/-!
# Well-formed requests

`RequestText` is a request as a client writes it: a request line
`METHOD SP target SP VERSION`, header lines that each contain a colon, and an
empty line.  It has no body: the parser never gets to `ExpectBody`.  What makes it
well formed is part of the structure.

`parseRequestLine_line` and `result_bytes` say what the parser makes of it,
whatever request it is read on top of.  The other two results are about a prefix
of a request: before the request line is complete there is no line to parse
(`free_of_short`), and from there to the end of the request the call never
returns (`result_of_incomplete`).
-/

namespace YxAlpha

/-- A request without a body. -/
structure RequestText where
  method : Bytes
  target : Bytes
  version : Bytes
  fields : List Bytes
  method_mem : method ∈ methodWords
  version_mem : version ∈ versionWords
  target_space : space ∉ target
  target_free : crlf.Free target
  fields_ok : ∀ field ∈ fields, colon ∈ field ∧ crlf.Free field

namespace RequestText

def line (r : RequestText) : Bytes :=
  r.method ++ space :: (r.target ++ space :: r.version)

def bytes (r : RequestText) : Bytes :=
  r.line ++ crlf.word ++ (crlf.join r.fields ++ crlf.word)

/-- The target before its first `'?'`. -/
def path (r : RequestText) : Bytes := r.target.take (r.target.idxOf questionMark)

/-- The target from its first `'?'` on. -/
def query (r : RequestText) : Bytes := r.target.drop (r.target.idxOf questionMark)

def versionOf (r : RequestText) : Version :=
  if r.version = ascii "HTTP/1.1" then .http11 else .http10

/-- The names of the header lines. -/
def names (r : RequestText) : List Bytes := r.fields.map fieldOf

/-- The request after its request line has been parsed. -/
def storedLine (request : HttpRequest) (r : RequestText) : HttpRequest where
  method := HttpRequest.methodOf r.method
  version := r.versionOf
  path := r.path
  query := r.query
  headers := request.headers

/-- The request after all of it has been parsed. -/
def stored (request : HttpRequest) (r : RequestText) : HttpRequest :=
  { r.storedLine request with headers := storeHeaders request.headers r.fields }

/-! ## The request line -/

theorem space_not_mem_method (r : RequestText) : space ∉ r.method := by
  have hwords : ∀ word ∈ methodWords, space ∉ word := by decide
  exact hwords _ r.method_mem

theorem methodOf_ne_invalid (r : RequestText) : HttpRequest.methodOf r.method ≠ .invalid := by
  have hwords : ∀ word ∈ methodWords, HttpRequest.methodOf word ≠ .invalid := by decide
  exact hwords _ r.method_mem

theorem length_version (r : RequestText) : r.version.length = 8 := by
  have hwords : ∀ word ∈ versionWords, word.length = 8 := by decide
  exact hwords _ r.version_mem

/-- The last character of the version decides between the two versions. -/
theorem parseVersion_version (request : HttpRequest) (r : RequestText) :
    parseVersion request r.version = (true, request.setVersion r.versionOf) := by
  have hwords : ∀ word ∈ versionWords, strncmp word (ascii "HTTP/1." ++ [0]) word.length ≠ 0 ∧
      ((word.getD 7 0 = 49 ∧ word = ascii "HTTP/1.1") ∨
        (word.getD 7 0 = 48 ∧ word ≠ ascii "HTTP/1.1")) := by decide
  obtain ⟨hdiffers, hcases⟩ := hwords _ r.version_mem
  rw [parseVersion, if_pos ⟨r.length_version, hdiffers⟩, versionOf]
  rcases hcases with ⟨hlast, hword⟩ | ⟨hlast, hword⟩
  · rw [if_pos hlast, if_pos hword]
  · rw [if_neg (by rw [hlast]; decide), if_pos hlast, if_neg hword]

theorem parseRequestLine_line (request : HttpRequest) (r : RequestText) :
    parseRequestLine request r.line = (true, r.storedLine request) := by
  have hwords := parseRequestLine_words request r.version r.space_not_mem_method r.target_space
  rw [if_neg r.methodOf_ne_invalid, parseVersion_version] at hwords
  exact hwords

theorem accepts_line (r : RequestText) : accepts r.line = true := by
  rw [accepts, parseRequestLine_line]

theorem free_line (r : RequestText) : crlf.Free r.line := by
  have hmethods : ∀ word ∈ methodWords, crlf.Free word := by decide
  have hversions : ∀ word ∈ versionWords, crlf.Free word := by decide
  exact crlf.free_append_cons (hmethods _ r.method_mem)
    (crlf.free_append_cons r.target_free (hversions _ r.version_mem) (by decide)) (by decide)

/-! ## Calls of the parser on the text -/

/-- A call that finds the whole request reads exactly that. -/
theorem result_bytes (request : HttpRequest) (r : RequestText) (rest : Bytes) :
    Scan.result ⟨.expectRequestLine, request⟩ (r.bytes ++ rest) =
      some ⟨⟨.done, r.stored request⟩, rest, true, true⟩ := by
  have hcut : crlf.cut (r.bytes ++ rest) =
      some (r.line, crlf.join r.fields ++ crlf.word ++ rest) := by
    rw [bytes, List.append_assoc]
    exact crlf.cut_delimited r.free_line _
  have hsection := headerSection_join (parseRequestLine request r.line).2 r.fields_ok rest
  rw [Scan.result_of_section hcut r.accepts_line hsection, headers_foldl_addHeaderLine,
    parseRequestLine_line]
  rfl

/-- Before the request line is complete there is no line in the text. -/
theorem free_of_short (r : RequestText) {unread : Bytes} (hpre : unread <+: r.bytes)
    (hlength : unread.length < r.line.length + 2) : crlf.Free unread := by
  have hline : unread <+: r.line ++ crlf.word :=
    List.prefix_of_prefix_length_le hpre (List.prefix_append _ _) (by simp; omega)
  exact crlf.free_of_prefix r.free_line hline hlength

/-- A header section that stops before its end is not a header section. -/
theorem headerSection_of_incomplete (request : HttpRequest) {fields : List Bytes}
    (hfields : ∀ field ∈ fields, colon ∈ field ∧ crlf.Free field) {unread : Bytes}
    (hpre : unread <+: crlf.join fields ++ crlf.word)
    (hlength : unread.length < (crlf.join fields ++ crlf.word).length) :
    headerSection request unread = none := by
  induction fields generalizing request unread with
  | nil =>
      have hfree := crlf.free_of_prefix (l := []) (by decide) (by simpa using hpre)
        (by simpa using hlength)
      exact headerSection_of_none (crlf.cut_eq_none_iff.mpr hfree) request
  | cons field fields ih =>
      obtain ⟨hcolon, hfree⟩ := hfields field List.mem_cons_self
      rw [crlf.join_cons, List.append_assoc (field ++ crlf.word)] at hpre hlength
      rcases Nat.lt_or_ge unread.length (field ++ crlf.word).length with hshort | hlong
      · have hcut := crlf.cut_eq_none_iff.mpr (crlf.free_of_prefix hfree
          (List.prefix_of_prefix_length_le hpre (List.prefix_append _ _) hshort.le)
          (by rwa [List.length_append] at hshort))
        exact headerSection_of_none hcut request
      · -- The first field is complete, so the section stops behind it.
        obtain ⟨rest, rfl⟩ := List.prefix_of_prefix_length_le (List.prefix_append _ _) hpre hlong
        rw [headerSection_of_cut (crlf.cut_delimited hfree rest), if_pos hcolon]
        refine ih _ (fun other hother => hfields other (List.mem_cons_of_mem _ hother))
          ((List.prefix_append_right_inj _).mp hpre) ?_
        rw [@List.length_append _ (field ++ crlf.word), @List.length_append _ (field ++ crlf.word)]
          at hlength
        omega

/-- Between its request line and its end, the call never returns. -/
theorem result_of_incomplete (request : HttpRequest) (r : RequestText) {unread : Bytes}
    (hpre : unread <+: r.bytes) (hline : r.line.length + 2 ≤ unread.length)
    (hlength : unread.length < r.bytes.length) :
    Scan.result ⟨.expectRequestLine, request⟩ unread = none := by
  have hlong : (r.line ++ crlf.word).length ≤ unread.length := by simpa using hline
  obtain ⟨rest, rfl⟩ := List.prefix_of_prefix_length_le (List.prefix_append _ _) hpre hlong
  have hrest := headerSection_of_incomplete (r.storedLine request) r.fields_ok
    ((List.prefix_append_right_inj _).mp hpre) (by
      rw [bytes, List.length_append, @List.length_append _ (r.line ++ crlf.word)] at hlength
      omega)
  simp only [Scan.result, crlf.cut_delimited r.free_line rest, accepts_line, parseRequestLine_line,
    hrest]
  rfl

end RequestText

end YxAlpha
