import YxAlpha.Http.Scan
import YxAlpha.Library.SelfDelimiting

/-!
# Request lines

`ParseRequestLine` cuts a line at its first two spaces.  `parseRequestLine_words` says what it
makes of the three words, whatever request it is read on top of.

The source takes the result of `strncmp` for a truth value, so the version is accepted when it
is *not* `"HTTP/1."`; it is compared with its last character included, which the pattern ends
before, and so `HTTP/1.0` and `HTTP/1.1` pass as well.  `accepts_iff` is what that amounts to,
and `grammar_iff` compares it with the grammar.  `parse_written_iff` reads back a line written
from a method, a path, a query and a version.
-/

namespace YxAlpha

def methodWords : List Bytes :=
  [ascii "GET", ascii "POST", ascii "HEAD", ascii "PUT", ascii "DELETE"]

def versionWords : List Bytes := [ascii "HTTP/1.0", ascii "HTTP/1.1"]

/-- `METHOD SP target SP VERSION`. -/
def requestLine (method target version : Bytes) : Bytes :=
  method ++ space :: (target ++ space :: version)

/-- The grammar of request lines. -/
def IsRequestLine (line : Bytes) : Prop :=
  ∃ method ∈ methodWords, ∃ target, space ∉ target ∧
    ∃ version ∈ versionWords, line = requestLine method target version

/-- Eight characters that end in 0 or 1. -/
def LooksLikeVersion (version : Bytes) : Prop :=
  version.length = 8 ∧ (version.getD 7 0 = 48 ∨ version.getD 7 0 = 49)

/-- A request line but for the version, which only looks like one. -/
def Misversioned (line : Bytes) : Prop :=
  ∃ method ∈ methodWords, ∃ target, space ∉ target ∧
    ∃ version, LooksLikeVersion version ∧ ¬ ascii "HTTP/1." <+: version ∧
      line = requestLine method target version

/-- The request with the method and the target of a line. -/
def HttpRequest.storeWords (request : HttpRequest) (method target : Bytes) : HttpRequest :=
  { request with
    method := HttpRequest.methodOf method
    path := target.take (target.idxOf questionMark)
    query := target.drop (target.idxOf questionMark) }

/-- What `ParseRequestLine` makes of the text behind the second space. -/
def parseVersion (request : HttpRequest) (version : Bytes) : Bool × HttpRequest :=
  if version.length = 8 ∧ strncmp version (ascii "HTTP/1." ++ [0]) version.length ≠ 0 then
    if version.getD 7 0 = 49 then (true, request.setVersion .http11)
    else if version.getD 7 0 = 48 then (true, request.setVersion .http10)
    else (false, request.setVersion .unknown)
  else (false, request)

/-! ## Searches in a line -/

theorem slice_add (line : Bytes) (start first last : ℕ) :
    slice line (start + first) (start + last) = slice (line.drop start) first last := by
  rw [slice, ← List.drop_drop, List.drop_take, Nat.add_sub_cancel_left]
  rfl

theorem find_add (line : Bytes) (start last : ℕ) (c : UInt8) :
    find line start (start + last) c = start + ((line.drop start).take last).idxOf c := by
  rw [find, List.drop_take, Nat.add_sub_cancel_left]

theorem idxOf_append_cons {front : Bytes} {c : UInt8} (back : Bytes) (hfront : c ∉ front) :
    (front ++ c :: back).idxOf c = front.length := by
  rw [List.idxOf_append_of_notMem hfront, List.idxOf_cons_self, Nat.add_zero]

theorem find_zero (line : Bytes) (c : UInt8) : find line 0 line.length c = line.idxOf c := by
  have h := find_add line 0 line.length c
  rw [Nat.zero_add, List.drop_zero, List.take_length, Nat.zero_add] at h
  exact h

/-! ## The three words -/

section words

variable (request : HttpRequest) {method target : Bytes} (version : Bytes)

theorem drop_method : (requestLine method target version).drop (method.length + 1) =
    target ++ space :: version := by
  rw [requestLine, ← List.drop_drop, List.drop_left]
  rfl

theorem drop_target : (requestLine method target version).drop
    (method.length + 1 + target.length + 1) = version := by
  rw [Nat.add_assoc, ← List.drop_drop, drop_method, ← List.drop_drop, List.drop_left]
  rfl

theorem length_requestLine : (requestLine method target version).length =
    method.length + 1 + target.length + 1 + version.length := by
  simp only [requestLine, List.length_append, List.length_cons]
  omega

theorem parseRequestLine_words (hmethod : space ∉ method) (htarget : space ∉ target) :
    parseRequestLine request (requestLine method target version) =
      if HttpRequest.methodOf method = .invalid then (false, (request.setMethod method).2)
      else parseVersion (request.storeWords method target) version := by
  set line := requestLine method target version with hline
  -- The positions the source computes, from left to right.
  set start := method.length + 1 with hstart
  set stop := start + target.length with hstop
  have hlength : line.length = stop + 1 + version.length := length_requestLine version
  have hdropMethod : line.drop start = target ++ space :: version := drop_method version
  have hdropTarget : line.drop (stop + 1) = version := drop_target version
  have hfindMethod : find line 0 line.length space = method.length := by
    rw [find_zero, hline, requestLine, idxOf_append_cons _ hmethod]
  have hfindTarget : find line start line.length space = stop := by
    have hrest : line.length = start + (target ++ space :: version).length := by
      rw [List.length_append, List.length_cons]
      omega
    rw [hrest, find_add, hdropMethod, List.take_length, idxOf_append_cons _ htarget]
  have hfindQuestion : find line start stop questionMark = start + target.idxOf questionMark := by
    rw [hstop, find_add, hdropMethod, List.take_left]
  have hindex : target.idxOf questionMark ≤ target.length := List.idxOf_le_length
  have hsliceMethod : slice line 0 method.length = method := by
    rw [slice, hline, requestLine, List.take_left, List.drop_zero]
  have hslicePath : slice line start (start + target.idxOf questionMark) =
      target.take (target.idxOf questionMark) := by
    have h := slice_add line start 0 (target.idxOf questionMark)
    rw [Nat.add_zero] at h
    rw [h, hdropMethod, slice, List.drop_zero, List.take_append_of_le_length hindex]
  have hsliceQuery : slice line (start + target.idxOf questionMark) stop =
      target.drop (target.idxOf questionMark) := by
    rw [hstop, slice_add, hdropMethod, slice, List.take_left]
  have hquestion : start + target.idxOf questionMark ≠ line.length := by omega
  have hsize : line.length - (stop + 1) = version.length := by omega
  have hlast : version.length = 8 → line.getD (line.length - 1) 0 = version.getD 7 0 := by
    intro h
    rw [← hdropTarget, List.getD_eq_getElem?_getD, List.getD_eq_getElem?_getD, List.getElem?_drop,
      hlength, h, show stop + 1 + 8 - 1 = stop + 1 + 7 by omega]
  simp only [parseRequestLine, hfindMethod, ← hstart, hfindTarget, hfindQuestion, hsliceMethod,
    hslicePath, hsliceQuery, hdropTarget, hsize]
  rw [if_neg (by omega), if_neg (show stop ≠ line.length by omega), if_pos hquestion]
  by_cases hknown : HttpRequest.methodOf method = .invalid
  · rw [if_pos (by simp [HttpRequest.setMethod, hknown]), if_pos hknown]
  · rw [if_neg (by simp [HttpRequest.setMethod, hknown]), if_neg hknown, parseVersion]
    by_cases hversion :
        version.length = 8 ∧ strncmp version (ascii "HTTP/1." ++ [0]) version.length ≠ 0
    · rw [if_pos hversion, if_pos hversion, hlast hversion.1]
      rfl
    · rw [if_neg hversion, if_neg hversion]
      rfl

end words

theorem parseRequestLine_noSpace (request : HttpRequest) {line : Bytes} (h : space ∉ line) :
    parseRequestLine request line = (false, request) := by
  have hfind : find line 0 line.length space = line.length := by
    rw [find_zero, List.idxOf_eq_length_iff.mpr h]
  simp only [parseRequestLine, hfind, if_true]

theorem parseRequestLine_oneSpace (request : HttpRequest) {method rest : Bytes}
    (hmethod : space ∉ method) (hrest : space ∉ rest) :
    (parseRequestLine request (method ++ space :: rest)).1 = false := by
  set line := method ++ space :: rest with hline
  have hlength : line.length = method.length + 1 + rest.length := by
    rw [hline, List.length_append, List.length_cons]
    omega
  have hdrop : line.drop (method.length + 1) = rest := by
    rw [hline, ← List.drop_drop, List.drop_left]
    rfl
  have hfindMethod : find line 0 line.length space = method.length := by
    rw [find_zero, hline, idxOf_append_cons _ hmethod]
  have hfindTarget : find line (method.length + 1) line.length space = line.length := by
    rw [hlength, find_add, hdrop, List.take_length, List.idxOf_eq_length_iff.mpr hrest]
  simp only [parseRequestLine, hfindMethod, hfindTarget]
  rw [if_neg (by omega)]
  split <;> rfl

/-! ## Which lines are accepted -/

theorem methodOf_ne_invalid_iff (token : Bytes) :
    HttpRequest.methodOf token ≠ .invalid ↔ token ∈ methodWords := by
  unfold HttpRequest.methodOf methodWords
  split_ifs <;> simp [*]

theorem space_not_mem_methodWords : ∀ word ∈ methodWords, space ∉ word := by
  decide

/-- The comparison finds no difference only in a string that ends where the pattern does. -/
theorem last_of_strncmp (pattern : Bytes) {text : Bytes} (hpattern : 0 ∉ pattern)
    (hlength : text.length = pattern.length + 1)
    (h : strncmp text (pattern ++ [0]) text.length = 0) : text.getD pattern.length 0 = 0 := by
  induction pattern generalizing text with
  | nil =>
      obtain ⟨c, rfl⟩ := List.length_eq_one_iff.mp hlength
      by_contra hc
      have hne : c ≠ 0 := hc
      simp only [strncmp, List.length_singleton, List.nil_append, if_pos hne] at h
      apply hne
      apply UInt8.toNat_inj.mp
      simpa using h
  | cons b pattern ih =>
      rw [List.mem_cons, not_or] at hpattern
      cases text with
      | nil => cases hlength
      | cons c text =>
          simp only [strncmp, List.length_cons, List.cons_append] at h hlength
          by_cases hc : c ≠ b
          · rw [if_pos hc] at h
            exact absurd (UInt8.toNat_inj.mp (by omega)) hc
          · rw [not_not] at hc
            subst hc
            rw [if_neg (by simp), if_neg (Ne.symm hpattern.1)] at h
            exact ih hpattern.2 (by omega) h

theorem parseVersion_fst_iff (request : HttpRequest) (version : Bytes) :
    (parseVersion request version).1 = true ↔ LooksLikeVersion version := by
  unfold parseVersion LooksLikeVersion
  constructor
  · intro h
    split at h
    · rename_i hversion
      refine ⟨hversion.1, ?_⟩
      split at h
      · exact Or.inr ‹_›
      · split at h
        · exact Or.inl ‹_›
        · cases h
    · cases h
  · rintro ⟨hlength, hlast⟩
    have hdiffers : strncmp version (ascii "HTTP/1." ++ [0]) version.length ≠ 0 := by
      intro hzero
      have hend := last_of_strncmp (ascii "HTTP/1.") (by decide) hlength hzero
      rw [show (ascii "HTTP/1.").length = 7 from rfl] at hend
      rcases hlast with h | h <;> rw [hend] at h <;> exact absurd h (by decide)
    rw [if_pos ⟨hlength, hdiffers⟩]
    rcases hlast with h | h
    · rw [if_neg (by rw [h]; decide), if_pos h]
    · rw [if_pos h]

/-- The lines that are accepted. -/
theorem accepts_iff (request : HttpRequest) (line : Bytes) :
    (parseRequestLine request line).1 = true ↔
      ∃ method ∈ methodWords, ∃ target, space ∉ target ∧
        ∃ version, LooksLikeVersion version ∧ line = requestLine method target version := by
  constructor
  · intro h
    have hspace : space ∈ line := by
      by_contra hnone
      rw [parseRequestLine_noSpace request hnone] at h
      cases h
    obtain ⟨method, rest, rfl, hmethod⟩ := List.eq_append_cons_of_mem hspace
    have hrest : space ∈ rest := by
      by_contra hnone
      rw [parseRequestLine_oneSpace request hmethod hnone] at h
      cases h
    obtain ⟨target, version, rfl, htarget⟩ := List.eq_append_cons_of_mem hrest
    rw [show method ++ space :: (target ++ space :: version) = requestLine method target version
      from rfl, parseRequestLine_words request version hmethod htarget] at h
    split at h
    · cases h
    · rename_i hknown
      exact ⟨method, (methodOf_ne_invalid_iff method).mp hknown, target, htarget, version,
        (parseVersion_fst_iff _ version).mp h, rfl⟩
  · rintro ⟨method, hmethod, target, htarget, version, hversion, rfl⟩
    rw [parseRequestLine_words request version (space_not_mem_methodWords method hmethod) htarget,
      if_neg ((methodOf_ne_invalid_iff method).mpr hmethod)]
    exact (parseVersion_fst_iff _ version).mpr hversion

/-- A line is cut in one way. -/
theorem version_of_requestLine {method target version method' target' version' : Bytes}
    (hmethod : method ∈ methodWords) (htarget : space ∉ target) (hmethod' : method' ∈ methodWords)
    (htarget' : space ∉ target')
    (h : requestLine method target version = requestLine method' target' version') :
    version = version' := by
  have hcut := Delimiter.selfDelimiting_letter space
  obtain ⟨-, hrest⟩ := hcut method method' (space_not_mem_methodWords _ hmethod)
    (space_not_mem_methodWords _ hmethod') (target ++ space :: version)
    (target' ++ space :: version') (by simpa [requestLine] using h)
  exact (hcut target target' htarget htarget' version version' (by simpa using hrest)).2

theorem looksLikeVersion_of_mem : ∀ version ∈ versionWords,
    LooksLikeVersion version ∧ ascii "HTTP/1." <+: version := by
  unfold LooksLikeVersion
  decide

theorem mem_versionWords_of_isPrefix {version : Bytes} (hversion : LooksLikeVersion version)
    (hstarts : ascii "HTTP/1." <+: version) : version ∈ versionWords := by
  obtain ⟨hlength, hlast⟩ := hversion
  obtain ⟨rest, rfl⟩ := hstarts
  have hone : rest.length = 1 := by
    rw [List.length_append, show (ascii "HTTP/1.").length = 7 from rfl] at hlength
    omega
  obtain ⟨c, rfl⟩ := List.length_eq_one_iff.mp hone
  have hc : (ascii "HTTP/1." ++ [c]).getD 7 0 = c := rfl
  rw [hc] at hlast
  rcases hlast with rfl | rfl <;> decide

/-- **Which lines `ParseRequestLine` accepts against the grammar**: it decides rightly unless
the line is a request line but for its version, which has the right length and the right last
character. -/
theorem grammar_iff (request : HttpRequest) (line : Bytes) :
    ((parseRequestLine request line).1 = true ↔ IsRequestLine line) ↔ ¬ Misversioned line := by
  constructor
  · rintro hagrees ⟨method, hmethod, target, htarget, version, hversion, hstarts, rfl⟩
    have haccepted := (accepts_iff request _).mpr
      ⟨method, hmethod, target, htarget, version, hversion, rfl⟩
    obtain ⟨method', hmethod', target', htarget', version', hversion', hline⟩ :=
      hagrees.mp haccepted
    have hsame := version_of_requestLine hmethod htarget hmethod' htarget' hline
    exact hstarts (hsame ▸ (looksLikeVersion_of_mem version' hversion').2)
  · intro hwell
    constructor
    · intro haccepted
      obtain ⟨method, hmethod, target, htarget, version, hversion, rfl⟩ :=
        (accepts_iff request line).mp haccepted
      refine ⟨method, hmethod, target, htarget, version, ?_, rfl⟩
      apply mem_versionWords_of_isPrefix hversion
      by_contra hstarts
      exact hwell ⟨method, hmethod, target, htarget, version, hversion, hstarts, rfl⟩
    · rintro ⟨method, hmethod, target, htarget, version, hversion, rfl⟩
      exact (accepts_iff request _).mpr ⟨method, hmethod, target, htarget, version,
        (looksLikeVersion_of_mem version hversion).1, rfl⟩

/-- A line of another protocol is accepted. -/
theorem misversioned_accepted : crlf.Free (ascii "GET / ICY/9.91") ∧
    (parseRequestLine .new (ascii "GET / ICY/9.91")).1 = true ∧
      ¬ IsRequestLine (ascii "GET / ICY/9.91") := by
  have hline : ascii "GET / ICY/9.91" =
      requestLine (ascii "GET") (ascii "/") (ascii "ICY/9.91") := by
    decide
  refine ⟨by decide, by decide, ?_⟩
  rintro ⟨method, hmethod, target, htarget, version, hversion, h⟩
  have hsame := version_of_requestLine (by decide) (by decide) hmethod htarget (hline.symm.trans h)
  rw [← hsame] at hversion
  exact absurd hversion (by decide)

/-! ## Writing a request line and parsing it -/

/-- The word of a method. -/
def Method.word : Method → Bytes
  | .invalid => []
  | .get => ascii "GET"
  | .post => ascii "POST"
  | .head => ascii "HEAD"
  | .put => ascii "PUT"
  | .delete => ascii "DELETE"

/-- The word of a version. -/
def Version.word : Version → Bytes
  | .unknown => []
  | .http10 => ascii "HTTP/1.0"
  | .http11 => ascii "HTTP/1.1"

theorem word_mem_methodWords {method : Method} (h : method ≠ .invalid) :
    method.word ∈ methodWords := by
  cases method <;> first | exact absurd rfl h | decide

theorem methodOf_word {method : Method} (h : method ≠ .invalid) :
    HttpRequest.methodOf method.word = method ↔ method ≠ .delete := by
  cases method <;> first | exact absurd rfl h | decide

theorem parseVersion_word (request : HttpRequest) {version : Version} (h : version ≠ .unknown) :
    parseVersion request version.word = (true, request.setVersion version) := by
  cases version with
  | unknown => exact absurd rfl h
  | http10 => rfl
  | http11 => rfl

/-- A target is cut at the question mark that begins its query. -/
theorem idxOf_target {path query : Bytes} (hpath : questionMark ∉ path)
    (hquery : query = [] ∨ query.head? = some questionMark) :
    (path ++ query).idxOf questionMark = path.length := by
  rcases hquery with rfl | hhead
  · rw [List.append_nil, List.idxOf_eq_length_iff.mpr hpath]
  · obtain ⟨rest, rfl⟩ := List.head?_eq_some_iff.mp hhead
    exact idxOf_append_cons rest hpath

/-- **Parsing undoes writing**, on top of whatever the request held before, for every method
but `DELETE`. -/
theorem parse_written_iff (request : HttpRequest) {method : Method} {version : Version}
    {path query : Bytes} (hmethod : method ≠ .invalid) (hversion : version ≠ .unknown)
    (hpath : space ∉ path ∧ questionMark ∉ path)
    (hquery : space ∉ query ∧ (query = [] ∨ query.head? = some questionMark)) :
    (∃ parsed, parseRequestLine request (requestLine method.word (path ++ query) version.word) =
        (true, parsed) ∧
      parsed.method = method ∧ parsed.path = path ∧ parsed.query = query ∧
        parsed.version = version) ↔ method ≠ .delete := by
  have hword := word_mem_methodWords hmethod
  have htarget : space ∉ path ++ query := by simp [hpath.1, hquery.1]
  have hwords := parseRequestLine_words request version.word
    (space_not_mem_methodWords _ hword) htarget
  rw [if_neg ((methodOf_ne_invalid_iff _).mpr hword), parseVersion_word _ hversion] at hwords
  rw [hwords, ← methodOf_word hmethod]
  have hcut := idxOf_target hpath.2 hquery.2
  constructor
  · rintro ⟨parsed, hparsed, hsame, -⟩
    rw [← (Prod.mk.inj hparsed).2] at hsame
    exact hsame
  · intro hsame
    refine ⟨_, rfl, hsame, ?_, ?_, rfl⟩
    · show (path ++ query).take ((path ++ query).idxOf questionMark) = path
      rw [hcut, List.take_left]
    · show (path ++ query).drop ((path ++ query).idxOf questionMark) = query
      rw [hcut, List.drop_left]

/-- A stale query does not outlive the next request line. -/
theorem parse_written_iff_post : ∃ parsed,
    parseRequestLine (HttpRequest.new.setQuery (ascii "?old")) (ascii "POST /a HTTP/1.0") =
      (true, parsed) ∧
    parsed.method = .post ∧ parsed.path = ascii "/a" ∧ parsed.query = [] ∧
      parsed.version = .http10 := by
  have hline : ascii "POST /a HTTP/1.0" =
      requestLine Method.post.word (ascii "/a" ++ []) Version.http10.word := by decide
  rw [hline]
  exact (parse_written_iff (HttpRequest.new.setQuery (ascii "?old")) (by decide) (by decide)
    (by decide) (by decide)).mpr (by decide)

theorem delete_parsed_as_get : ¬ ∃ parsed,
    parseRequestLine .new (requestLine Method.delete.word (ascii "/a" ++ []) Version.http11.word) =
      (true, parsed) ∧
    parsed.method = .delete ∧ parsed.path = ascii "/a" ∧ parsed.query = [] ∧
      parsed.version = .http11 := by
  rintro ⟨parsed, hparsed, hmethod, -⟩
  rw [← (Prod.mk.inj hparsed).2] at hmethod
  exact absurd hmethod (by decide)

end YxAlpha
