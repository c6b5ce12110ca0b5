import Mathlib.Data.List.Forall2
import YxAlpha.Http.RequestText
import YxAlpha.Http.Server

/-!
# Dispatching a stream of requests

A stream that consists of well-formed requests, cut into chunks.  A call on a
chunk does one of three things (`run_cons_of_bytes`, `run_cons_of_free`,
`run_cons_of_incomplete`): it dispatches the first unread request, it waits since
even the request line is incomplete, or it never returns since the cut is behind
the request line.  In the first case it dispatches that request only, and what
the chunk holds of the next ones stays unread until another chunk arrives.

`Paced` follows the stream through these three cases by lengths alone.  Two
cuttings of one stream dispatch the same requests, one for each request of the
stream, exactly when both are paced (`dispatches_iff_paced`).

The second result compares requests on one connection.  `HttpContext::Reset`
builds a fresh request in a local variable and leaves the parsed one in place,
so header lines stay behind: every dispatched request is what a fresh context
makes of its bytes exactly when no request omits a header name that an earlier
one has set (`fresh_iff_names`).
-/

namespace YxAlpha

/-- The requests dispatched for `rs` when `request` is left in the context. -/
def handed : HttpRequest → List RequestText → List HttpRequest
  | _, [] => []
  | request, r :: rs => r.stored request :: handed (r.stored request) rs

/-- Every call on the chunks returns, and the requests handed to `OnRequest` are
`requests`. -/
def Dispatches (chunks : List Bytes) (requests : List HttpRequest) : Prop :=
  ∃ fuel c, HttpConnection.new.run fuel chunks = some c ∧ c.requests = requests

/-- With `n` bytes unread and chunks of the lengths `ks` still to come, no chunk
ends between the request line and the end of the request that is then the first
unread one, and there is a chunk left for each request. -/
def Paced : List RequestText → ℕ → List ℕ → Prop
  | [], _, _ => True
  | _ :: _, _, [] => False
  | r :: rs, n, k :: ks =>
      if r.bytes.length ≤ n + k then Paced rs (n + k - r.bytes.length) ks
      else n + k < r.line.length + 2 ∧ Paced (r :: rs) (n + k) ks

@[simp] theorem paced_nil (n : ℕ) (ks : List ℕ) : Paced [] n ks := by
  cases ks <;> trivial

instance : ∀ rs n ks, Decidable (Paced rs n ks)
  | [], n, ks => isTrue (paced_nil n ks)
  | _ :: _, _, [] => isFalse id
  | r :: rs, n, k :: ks =>
      have := instDecidablePaced rs (n + k - r.bytes.length) ks
      have := instDecidablePaced (r :: rs) (n + k) ks
      inferInstanceAs (Decidable (if r.bytes.length ≤ n + k then _ else _))

theorem length_handed (request : HttpRequest) (rs : List RequestText) :
    (handed request rs).length = rs.length := by
  induction rs generalizing request with
  | nil => rfl
  | cons r rs ih => simp [handed, ih]

/-! ## One chunk -/

namespace Session

/-- The session after a call that has found the request `r`. -/
def dispatch (s : Session) (r : RequestText) (rest : Bytes) : Session where
  context := ⟨.expectRequestLine, r.stored s.context.request⟩
  unread := rest
  calls := s.calls ++ [.onRequest (r.stored s.context.request)]

@[simp] theorem requests_dispatch (s : Session) (r : RequestText) (rest : Bytes) :
    (s.dispatch r rest).requests = s.requests ++ [r.stored s.context.request] := by
  simp [requests, dispatch, Call.request?]

variable {s : Session} {chunk : Bytes}

theorem run_cons_of_bytes (hstate : s.context.state = .expectRequestLine) {r : RequestText}
    {rest : Bytes} (hunread : s.unread ++ chunk = r.bytes ++ rest) (chunks : List Bytes) :
    s.run (chunk :: chunks) = (s.dispatch r rest).run chunks := by
  have hcontext : s.context = ⟨.expectRequestLine, s.context.request⟩ := by rw [← hstate]
  rw [run, hunread, hcontext, r.result_bytes, Option.bind_some]
  simp [finish, respond, HttpContext.isDone, HttpContext.reset, dispatch]

theorem run_cons_of_free (hstate : s.context.state = .expectRequestLine)
    (hfree : crlf.Free (s.unread ++ chunk)) (chunks : List Bytes) :
    s.run (chunk :: chunks) = (s.receive chunk).run chunks := by
  have hcut := crlf.cut_eq_none_iff.mpr hfree
  simp [run, Scan.result, hstate, hcut, finish, respond, HttpContext.isDone, receive]

theorem run_cons_of_incomplete (hstate : s.context.state = .expectRequestLine) {r : RequestText}
    (hpre : s.unread ++ chunk <+: r.bytes) (hline : r.line.length + 2 ≤ (s.unread ++ chunk).length)
    (hlength : (s.unread ++ chunk).length < r.bytes.length) (chunks : List Bytes) :
    s.run (chunk :: chunks) = none := by
  have hcontext : s.context = ⟨.expectRequestLine, s.context.request⟩ := by rw [← hstate]
  rw [run, hcontext, r.result_of_incomplete _ hpre hline hlength, Option.bind_none]

end Session

/-! ## A whole stream -/

/-- The first request of a stream against what has arrived of the stream. -/
theorem append_eq_bytes {unread later : Bytes} {r : RequestText} {rs : List RequestText}
    (hbytes : unread ++ later = (r :: rs).flatMap RequestText.bytes) :
    (∃ rest, unread = r.bytes ++ rest ∧ rest ++ later = rs.flatMap RequestText.bytes) ∨
      (unread <+: r.bytes ∧ unread.length < r.bytes.length) := by
  rw [List.flatMap_cons] at hbytes
  have hunread : unread <+: r.bytes ++ rs.flatMap RequestText.bytes := ⟨later, hbytes⟩
  rcases Nat.lt_or_ge unread.length r.bytes.length with hshort | hlong
  · have hpre := List.prefix_of_prefix_length_le hunread (List.prefix_append _ _) hshort.le
    exact Or.inr ⟨hpre, hshort⟩
  · obtain ⟨rest, rfl⟩ := List.prefix_of_prefix_length_le (List.prefix_append _ _) hunread hlong
    rw [List.append_assoc] at hbytes
    exact Or.inl ⟨rest, rfl, List.append_cancel_left hbytes⟩

namespace Session

/-- A run that returns has dispatched the first requests of the stream, each on
top of the one before, and has called nothing else. -/
theorem calls_of_run {s t : Session} (hstate : s.context.state = .expectRequestLine)
    {rs : List RequestText} {chunks : List Bytes}
    (hbytes : s.unread ++ chunks.flatten = rs.flatMap RequestText.bytes)
    (hrun : s.run chunks = some t) :
    ∃ front, front <+: rs ∧
      t.calls = s.calls ++ (handed s.context.request front).map Call.onRequest := by
  induction chunks generalizing s rs with
  | nil =>
      cases hrun
      exact ⟨[], List.nil_prefix, by simp [handed]⟩
  | cons chunk chunks ih =>
      rw [List.flatten_cons, ← List.append_assoc] at hbytes
      cases rs with
      | nil =>
          obtain ⟨hempty, -⟩ := List.append_eq_nil_iff.mp hbytes
          rw [run_cons_of_free hstate (hempty ▸ by decide)] at hrun
          exact ih (s := s.receive chunk) hstate hbytes hrun
      | cons r rs =>
          rcases append_eq_bytes hbytes with ⟨rest, hunread, hrest⟩ | ⟨hpre, hshort⟩
          · rw [run_cons_of_bytes hstate hunread] at hrun
            obtain ⟨front, hfront, hcalls⟩ := ih (s := s.dispatch r rest) rfl hrest hrun
            refine ⟨r :: front, List.cons_prefix_cons.mpr ⟨rfl, hfront⟩, ?_⟩
            rw [hcalls, dispatch, List.append_assoc]
            rfl
          · rcases Nat.lt_or_ge (s.unread ++ chunk).length (r.line.length + 2) with hline | hline
            · rw [run_cons_of_free hstate (r.free_of_short hpre hline)] at hrun
              exact ih (s := s.receive chunk) hstate hbytes hrun
            · rw [run_cons_of_incomplete hstate hpre hline hshort] at hrun
              cases hrun

theorem requests_of_calls {s t : Session} {requests : List HttpRequest}
    (hcalls : t.calls = s.calls ++ requests.map Call.onRequest) :
    t.requests = s.requests ++ requests := by
  have hall : Call.request? ∘ Call.onRequest = some := rfl
  rw [Session.requests, hcalls, List.filterMap_append, List.filterMap_map, hall,
    List.filterMap_some, Session.requests]

theorem requests_of_run {s t : Session} (hstate : s.context.state = .expectRequestLine)
    {rs : List RequestText} {chunks : List Bytes}
    (hbytes : s.unread ++ chunks.flatten = rs.flatMap RequestText.bytes)
    (hrun : s.run chunks = some t) :
    ∃ front, front <+: rs ∧ t.requests = s.requests ++ handed s.context.request front := by
  obtain ⟨front, hfront, hcalls⟩ := calls_of_run hstate hbytes hrun
  exact ⟨front, hfront, requests_of_calls hcalls⟩

/-- A run dispatches all requests of the stream exactly when the stream is
paced. -/
theorem run_iff_paced {s : Session} (hstate : s.context.state = .expectRequestLine)
    {rs : List RequestText} {chunks : List Bytes}
    (hbytes : s.unread ++ chunks.flatten = rs.flatMap RequestText.bytes) :
    (∃ t, s.run chunks = some t ∧ t.requests = s.requests ++ handed s.context.request rs) ↔
      Paced rs s.unread.length (chunks.map List.length) := by
  induction chunks generalizing s rs with
  | nil =>
      cases rs with
      | nil => simp [run, handed]
      | cons r rs => simp [run, handed, Paced]
  | cons chunk chunks ih =>
      rw [List.flatten_cons, ← List.append_assoc] at hbytes
      have hlength : s.unread.length + chunk.length = (s.unread ++ chunk).length :=
        List.length_append.symm
      cases rs with
      | nil =>
          obtain ⟨hempty, -⟩ := List.append_eq_nil_iff.mp hbytes
          rw [run_cons_of_free hstate (hempty ▸ by decide)]
          exact (ih (s := s.receive chunk) hstate hbytes).trans (by simp)
      | cons r rs =>
          rw [List.map_cons, Paced, hlength]
          rcases append_eq_bytes hbytes with ⟨rest, hunread, hrest⟩ | ⟨hpre, hshort⟩
          · have hnext := ih (s := s.dispatch r rest) rfl hrest
            have hleft : (s.unread ++ chunk).length - r.bytes.length = rest.length := by
              rw [hunread, List.length_append, Nat.add_sub_cancel_left]
            rw [run_cons_of_bytes hstate hunread, if_pos (by rw [hunread]; simp), hleft]
            rw [requests_dispatch, List.append_assoc] at hnext
            exact hnext
          · rw [if_neg (by omega)]
            rcases Nat.lt_or_ge (s.unread ++ chunk).length (r.line.length + 2) with hline | hline
            · rw [run_cons_of_free hstate (r.free_of_short hpre hline)]
              have hnext := ih (s := s.receive chunk) hstate hbytes
              exact hnext.trans (and_iff_right hline).symm
            · rw [run_cons_of_incomplete hstate hpre hline hshort]
              constructor
              · rintro ⟨t, ht, -⟩
                cases ht
              · rintro ⟨hsmall, -⟩
                omega

end Session

/-! ## Requests on one connection -/

namespace RequestText

/-- The request a fresh context makes of the text. -/
def fresh (r : RequestText) : HttpRequest := r.stored .new

/-- The request has what the text says, whatever else is in its header map. -/
structure Carries (r : RequestText) (request : HttpRequest) : Prop where
  method : request.method = r.fresh.method
  version : request.version = r.fresh.version
  path : request.path = r.fresh.path
  query : request.query = r.fresh.query
  headers : ∀ name ∈ r.names, request.headers[name]? = r.fresh.headers[name]?

theorem getElem?_headers_stored (r : RequestText) (request : HttpRequest) (name : Bytes) :
    (r.stored request).headers[name]? = r.fresh.headers[name]?.or request.headers[name]? :=
  getElem?_storeHeaders request.headers r.fields name

theorem isSome_headers_fresh (r : RequestText) (name : Bytes) :
    r.fresh.headers[name]?.isSome ↔ name ∈ r.names :=
  isSome_getElem?_storeHeaders r.fields name

theorem isSome_headers_stored (r : RequestText) (request : HttpRequest) (name : Bytes) :
    (r.stored request).headers[name]?.isSome ↔
      name ∈ r.names ∨ request.headers[name]?.isSome := by
  rw [getElem?_headers_stored, Option.isSome_or, Bool.or_eq_true, isSome_headers_fresh]

theorem carries_stored (r : RequestText) (request : HttpRequest) :
    r.Carries (r.stored request) where
  method := rfl
  version := rfl
  path := rfl
  query := rfl
  headers name hname := by
    obtain ⟨value, hvalue⟩ := Option.isSome_iff_exists.mp ((r.isSome_headers_fresh name).mpr hname)
    rw [getElem?_headers_stored, hvalue, Option.some_or]

/-- Nothing of an earlier request is left exactly when the text names every
header that was set before. -/
theorem stored_eq_fresh_iff (r : RequestText) (request : HttpRequest) :
    r.stored request = r.fresh ↔ ∀ name, request.headers[name]?.isSome → name ∈ r.names := by
  constructor
  · intro h name hname
    rw [← isSome_headers_fresh, ← h, isSome_headers_stored]
    exact Or.inr hname
  · intro h
    have hheaders : (r.stored request).headers = r.fresh.headers := by
      apply Std.ExtTreeMap.ext_getElem?
      intro name
      rw [getElem?_headers_stored]
      cases hfresh : r.fresh.headers[name]? with
      | some value => rw [Option.some_or]
      | none =>
          rw [Option.none_or, ← Option.not_isSome_iff_eq_none]
          intro hname
          have := (r.isSome_headers_fresh name).mpr (h name hname)
          rw [hfresh] at this
          cases this
    calc r.stored request = { r.fresh with headers := (r.stored request).headers } := rfl
      _ = r.fresh := by rw [hheaders]

end RequestText

theorem carries_handed (request : HttpRequest) (rs : List RequestText) :
    List.Forall₂ RequestText.Carries rs (handed request rs) := by
  induction rs generalizing request with
  | nil => exact .nil
  | cons r rs ih => exact .cons (r.carries_stored request) (ih _)

theorem handed_eq_fresh_iff (request : HttpRequest) (rs : List RequestText) :
    List.Forall₂ (fun r dispatched => dispatched = r.fresh) rs (handed request rs) ↔
      (∀ r ∈ rs, ∀ name, request.headers[name]?.isSome → name ∈ r.names) ∧
        rs.Pairwise fun earlier later => earlier.names ⊆ later.names := by
  induction rs generalizing request with
  | nil => simp [handed]
  | cons r rs ih =>
      rw [handed, List.forall₂_cons, ih, r.stored_eq_fresh_iff, List.pairwise_cons]
      simp only [RequestText.isSome_headers_stored, List.forall_mem_cons]
      constructor
      · rintro ⟨hr, hrs, hpairwise⟩
        exact ⟨⟨hr, fun later hlater name hname => hrs later hlater name (Or.inr hname)⟩,
          fun later hlater name hname => hrs later hlater name (Or.inl hname), hpairwise⟩
      · rintro ⟨⟨hr, hrs⟩, hsubset, hpairwise⟩
        refine ⟨hr, ?_, hpairwise⟩
        intro later hlater name hname
        exact hname.elim (fun h => hsubset later hlater h) (hrs later hlater name)

/-- Nothing is set before the first request. -/
theorem handed_new_eq_fresh_iff (rs : List RequestText) :
    List.Forall₂ (fun r dispatched => dispatched = r.fresh) rs (handed .new rs) ↔
      rs.Pairwise fun earlier later => earlier.names ⊆ later.names := by
  rw [handed_eq_fresh_iff]
  simp [HttpRequest.new]

/-! ## What a connection dispatches -/

theorem dispatches_iff {chunks : List Bytes} {requests : List HttpRequest} :
    Dispatches chunks requests ↔ ∃ t, Session.new.run chunks = some t ∧ t.requests = requests := by
  simp only [Dispatches, ← HttpConnection.session_new, ← HttpConnection.exists_run_iff]
  constructor
  · rintro ⟨fuel, c, hrun, hrequests⟩
    exact ⟨c.session, ⟨fuel, c, hrun, rfl⟩, hrequests⟩
  · rintro ⟨_, ⟨fuel, c, hrun, rfl⟩, hrequests⟩
    exact ⟨fuel, c, hrun, hrequests⟩

theorem dispatches_bytes_iff (r : RequestText) (request : HttpRequest) :
    Dispatches [r.bytes] [request] ↔ request = r.fresh := by
  have hunread : Session.new.unread ++ r.bytes = r.bytes ++ [] := by simp [Session.new]
  rw [dispatches_iff, Session.run_cons_of_bytes rfl hunread, Session.run]
  simp only [Option.some.injEq, exists_eq_left', Session.requests_dispatch]
  show [] ++ [r.fresh] = [request] ↔ request = r.fresh
  rw [List.nil_append, List.singleton_inj, eq_comm]

/-- `GET / HTTP/1.1` with the given header lines. -/
def getRoot (fields : List Bytes) (hfields : ∀ field ∈ fields, colon ∈ field ∧ crlf.Free field) :
    RequestText where
  method := ascii "GET"
  target := ascii "/"
  version := ascii "HTTP/1.1"
  fields := fields
  method_mem := by decide
  version_mem := by decide
  target_space := by decide
  target_free := by decide
  fields_ok := hfields

def plainGet : RequestText := getRoot [] (by decide)

def hostGet : RequestText := getRoot [ascii "Host: a"] (by decide)

section Stream

variable {rs : List RequestText} {chunks : List Bytes} {requests : List HttpRequest}

/-- What is dispatched for all requests of a stream. -/
theorem eq_handed_of_dispatches (hbytes : chunks.flatten = rs.flatMap RequestText.bytes)
    (hdispatch : Dispatches chunks requests) (hall : requests.length = rs.length) :
    requests = handed .new rs := by
  obtain ⟨t, hrun, rfl⟩ := dispatches_iff.mp hdispatch
  obtain ⟨front, hfront, hrequests⟩ := Session.requests_of_run (s := .new) rfl hbytes hrun
  rw [show Session.new.requests = [] from rfl, List.nil_append] at hrequests
  rw [hrequests, length_handed] at hall
  rw [hrequests, hfront.eq_of_length hall]
  rfl

theorem dispatches_handed_iff (hbytes : chunks.flatten = rs.flatMap RequestText.bytes) :
    Dispatches chunks (handed .new rs) ↔ Paced rs 0 (chunks.map List.length) := by
  rw [dispatches_iff]
  exact Session.run_iff_paced (s := .new) rfl hbytes

variable {other : List Bytes}

/-- **Requests and packet boundaries.**  Two cuttings of a stream dispatch the
same requests, one for each request of the stream and in its order, exactly when
both are paced.  They are the requests of fresh contexts exactly when, besides,
no request omits a header name that an earlier one has set. -/
theorem dispatches_same_iff_paced (hchunks : chunks.flatten = rs.flatMap RequestText.bytes)
    (hother : other.flatten = rs.flatMap RequestText.bytes) :
    ((∃ requests, Dispatches chunks requests ∧ Dispatches other requests ∧
        List.Forall₂ RequestText.Carries rs requests) ↔
      Paced rs 0 (chunks.map List.length) ∧ Paced rs 0 (other.map List.length)) ∧
    ((∃ requests, Dispatches chunks requests ∧ Dispatches other requests ∧
        List.Forall₂ (fun r request => request = r.fresh) rs requests) ↔
      Paced rs 0 (chunks.map List.length) ∧ Paced rs 0 (other.map List.length) ∧
        rs.Pairwise fun earlier later => earlier.names ⊆ later.names) := by
  rw [← dispatches_handed_iff hchunks, ← dispatches_handed_iff hother, ← handed_new_eq_fresh_iff]
  constructor
  · constructor
    · rintro ⟨requests, hfirst, hsecond, hcarries⟩
      obtain rfl := eq_handed_of_dispatches hchunks hfirst hcarries.length_eq.symm
      exact ⟨hfirst, hsecond⟩
    · rintro ⟨hfirst, hsecond⟩
      exact ⟨handed .new rs, hfirst, hsecond, carries_handed .new rs⟩
  · constructor
    · rintro ⟨requests, hfirst, hsecond, hfresh⟩
      obtain rfl := eq_handed_of_dispatches hchunks hfirst hfresh.length_eq.symm
      exact ⟨hfirst, hsecond, hfresh⟩
    · rintro ⟨hfirst, hsecond, hfresh⟩
      exact ⟨handed .new rs, hfirst, hsecond, hfresh⟩

theorem dispatches_same_iff_paced_plainGet :
    ∃ requests, Dispatches [plainGet.bytes, plainGet.bytes] requests ∧
      Dispatches [plainGet.bytes.take 5, plainGet.bytes.drop 5, plainGet.bytes] requests ∧
        List.Forall₂ RequestText.Carries [plainGet, plainGet] requests :=
  (@dispatches_same_iff_paced [plainGet, plainGet] _ _ (by decide) (by decide)).1.mpr (by decide)

/-- Two requests in one chunk are not dispatched both. -/
theorem pipelined_not_dispatched :
    [plainGet.bytes ++ plainGet.bytes].flatten = [plainGet, plainGet].flatMap RequestText.bytes ∧
      ¬ ∃ requests, Dispatches [plainGet.bytes ++ plainGet.bytes] requests ∧
        requests.length = [plainGet, plainGet].length := by
  refine ⟨by decide, ?_⟩
  rintro ⟨requests, hdispatch, hall⟩
  have hbytes : [plainGet.bytes ++ plainGet.bytes].flatten =
      [plainGet, plainGet].flatMap RequestText.bytes := by decide
  rw [eq_handed_of_dispatches hbytes hdispatch hall, dispatches_handed_iff hbytes] at hdispatch
  exact absurd hdispatch (by decide)

/-- **Requests on one connection.**  When all requests of a stream are
dispatched, each is what a fresh connection makes of its bytes exactly when no
request omits a header name that an earlier one has set. -/
theorem dispatched_fresh_iff_names (hbytes : chunks.flatten = rs.flatMap RequestText.bytes)
    (hdispatch : Dispatches chunks requests) (hall : requests.length = rs.length) :
    List.Forall₂ (fun r request => Dispatches [r.bytes] [request]) rs requests ↔
      rs.Pairwise fun earlier later => earlier.names ⊆ later.names := by
  simp only [dispatches_bytes_iff]
  rw [eq_handed_of_dispatches hbytes hdispatch hall, handed_new_eq_fresh_iff]

theorem dispatched_fresh_iff_names_hostGet :
    List.Forall₂ (fun r request => Dispatches [r.bytes] [request]) [plainGet, hostGet]
      (handed .new [plainGet, hostGet]) :=
  (@dispatched_fresh_iff_names _ [plainGet.bytes, hostGet.bytes] _ (by decide)
    ((dispatches_handed_iff (by decide)).mpr (by decide)) rfl).mpr (by decide)

/-- The second of two requests keeps the header of the first. -/
theorem header_survives_reset :
    ∃ requests, Dispatches [hostGet.bytes, plainGet.bytes] requests ∧
      requests.length = [hostGet, plainGet].length ∧
        ¬ List.Forall₂ (fun r request => Dispatches [r.bytes] [request]) [hostGet, plainGet]
          requests := by
  refine ⟨handed .new [hostGet, plainGet], ?_, rfl, ?_⟩
  · exact (dispatches_handed_iff (by decide)).mpr (by decide)
  · simp only [dispatches_bytes_iff]
    rw [handed_new_eq_fresh_iff]
    decide

end Stream

end YxAlpha
