import YxAlpha.Http.Pointers

/-!
# The parser stays inside the payload

A call of `ParseRequest` goes through iterations until its exit flag is set.  `Inside` says
what one of them does to the buffer: everything it reads lies in the line that `findCRLF`
found, that line lies between the indices with its delimiter, and the line is either taken off
the payload, delimiter included, or the payload is left alone.

An iteration has such a line to work on only in the two states a call starts in, and these
are the states in which the loop goes on (`Scan.goesOn_body`).  So the iterations of a call
can be taken one after another, and none of them fails.
-/

namespace YxAlpha

/-- The state is one in which the loop looks for a line. -/
def ParseState.LooksForLine (state : ParseState) : Prop :=
  state = .expectRequestLine ∨ state = .expectHeaders

namespace Pointers

/-- The iterations of a call, with the exit flag looked at before each. -/
def iterations (context : HttpContext) (buf : Buffer) : Machine Parse Unit where
  init := ⟨context, buf, true, false⟩
  step p _ := if p.flagEnd then none else (body p).map Prod.fst

/-- The iteration has found no line, or has rejected the request line it found. -/
def Keeps (p next : Parse) : Prop :=
  p.buf.findCRLF = none ∨ p.context.state = .expectRequestLine ∧ next.ok = false

/-- An iteration from `p` to `next` that reads the vector at `reads` stays inside the payload. -/
structure Inside (p next : Parse) (reads : List ℕ) : Prop where
  /-- What the assertions of `move_read_index_until` and `move_read_index` ask. -/
  line_le : ∀ stop, p.buf.findCRLF = some stop →
    p.buf.readIndex ≤ stop + 2 ∧ stop + 2 ≤ p.buf.writeIndex ∧
      stop + 2 - p.buf.readIndex ≤ p.buf.payloadSize
  reads_line : ∀ i ∈ reads, ∃ stop, p.buf.findCRLF = some stop ∧ p.buf.readIndex ≤ i ∧ i < stop
  kept : Keeps p next → next.buf.payload = p.buf.payload
  processed : ¬ Keeps p next → ∃ stop, p.buf.findCRLF = some stop ∧
    crlf.Free (slice p.buf.buffer p.buf.readIndex stop) ∧
      p.buf.payload = slice p.buf.buffer p.buf.readIndex stop ++ crlf.word ++ next.buf.payload

end Pointers

/-! ## The payload after an iteration -/

theorem scan_of_body {p next : Parse} (h : p.body = some next) : next.scan = p.scan.body := by
  have hscan := p.map_scan_body
  rw [h, Option.map_some] at hscan
  exact Option.some.inj hscan

/-- A call that goes on looks for a line. -/
def Scan.GoesOn (s : Scan) : Prop := s.flagEnd = false → s.context.state.LooksForLine

theorem Scan.goesOn_body {s : Scan} (hs : s.context.state.LooksForLine) : s.body.GoesOn := by
  obtain ⟨⟨state, request⟩, unread, ok, flagEnd⟩ := s
  rcases hs with hs | hs <;> cases hs
  · unfold Scan.body
    cases hcut : crlf.cut unread with
    | none => exact fun _ => Or.inl rfl
    | some pair =>
        by_cases haccepts : accepts pair.1
        · simp only [if_pos haccepts]
          exact fun _ => Or.inr rfl
        · simp only [if_neg haccepts]
          exact fun _ => Or.inl rfl
  · unfold Scan.body
    cases hcut : crlf.cut unread with
    | none => exact fun _ => Or.inr rfl
    | some pair =>
        by_cases hcolon : colon ∈ pair.1
        · simp only [if_pos hcolon]
          exact fun _ => Or.inr rfl
        · simp only [if_neg hcolon]
          exact nofun

theorem Scan.unread_body_of_none {s : Scan} (hs : s.context.state.LooksForLine)
    (hcut : crlf.cut s.unread = none) : s.body.unread = s.unread := by
  obtain ⟨⟨state, request⟩, unread, ok, flagEnd⟩ := s
  rcases hs with hs | hs <;> cases hs <;> simp only [Scan.body, hcut]

/-- Of a line that is found, only a rejected request line stays unread. -/
theorem Scan.unread_body_of_cut {s : Scan} (hs : s.context.state.LooksForLine) {line rest : Bytes}
    (hcut : crlf.cut s.unread = some (line, rest)) :
    s.body.unread =
      if s.context.state = .expectRequestLine ∧ s.body.ok = false then s.unread else rest := by
  obtain ⟨⟨state, request⟩, unread, ok, flagEnd⟩ := s
  rcases hs with hs | hs <;> cases hs <;> simp only [Scan.body, hcut] <;> split <;> simp

namespace Pointers

variable {p next : Parse}

theorem keeps_iff_of_cut (h : p.body = some next) {line rest : Bytes}
    (hcut : crlf.cut p.buf.payload = some (line, rest)) :
    Keeps p next ↔ p.scan.context.state = .expectRequestLine ∧ p.scan.body.ok = false := by
  have hfind := (findCRLF_of_cut hcut).1
  have hok : next.ok = p.scan.body.ok := congrArg Scan.ok (scan_of_body h)
  rw [Keeps, hfind, hok]
  exact or_iff_right (Option.some_ne_none _)

theorem payload_of_keeps (h : p.body = some next) (hstate : p.context.state.LooksForLine)
    (hkeeps : Keeps p next) : next.buf.payload = p.buf.payload := by
  have hunread : next.buf.payload = p.scan.body.unread := congrArg Scan.unread (scan_of_body h)
  rw [hunread]
  cases hcut : crlf.cut p.buf.payload with
  | none => exact Scan.unread_body_of_none hstate hcut
  | some pair =>
      rw [Scan.unread_body_of_cut hstate hcut, if_pos ((keeps_iff_of_cut h hcut).mp hkeeps)]
      rfl

/-- Without a reason to keep the payload exactly the line in front is taken off. -/
theorem payload_of_not_keeps (h : p.body = some next) (hstate : p.context.state.LooksForLine)
    (hkeeps : ¬ Keeps p next) :
    ∃ stop, p.buf.findCRLF = some stop ∧ crlf.Free (slice p.buf.buffer p.buf.readIndex stop) ∧
      p.buf.payload = slice p.buf.buffer p.buf.readIndex stop ++ crlf.word ++ next.buf.payload := by
  have hunread : next.buf.payload = p.scan.body.unread := congrArg Scan.unread (scan_of_body h)
  cases hcut : crlf.cut p.buf.payload with
  | none => exact absurd (Or.inl (findCRLF_of_cut_none hcut)) hkeeps
  | some pair =>
      obtain ⟨line, rest⟩ := pair
      obtain ⟨hfind, hline, -⟩ := findCRLF_of_cut hcut
      obtain ⟨hpayload, hfree⟩ := crlf.cut_eq_some hcut
      have hrest : next.buf.payload = rest := by
        rw [hunread, Scan.unread_body_of_cut hstate hcut]
        exact if_neg (mt (keeps_iff_of_cut h hcut).mpr hkeeps)
      refine ⟨p.buf.readIndex + line.length, hfind, ?_, ?_⟩
      · rwa [hline]
      · rw [hline, hrest, hpayload]

/-! ## The iterations of a call -/

/-- What an iteration does from a state in which the loop looks for a line. -/
theorem inside_body (hstate : p.context.state.LooksForLine) :
    ∃ next reads, body p = some (next, reads) ∧ Inside p next reads := by
  obtain ⟨next, reads, hrun, hbody, hreads⟩ := exists_body p
  refine ⟨next, reads, hrun, ?_, hreads, payload_of_keeps hbody hstate,
    payload_of_not_keeps hbody hstate⟩
  intro stop hfind
  obtain ⟨line, rest, -, hstop, hend⟩ := exists_line_of_findCRLF hfind
  rw [Buffer.payloadSize]
  omega

section Run

variable {context : HttpContext} {buf : Buffer}

theorem step_iterations (p : Parse) :
    (iterations context buf).step p () = if p.flagEnd then none else p.body := by
  rw [← map_fst_body]
  rfl

/-- The loop of `ParseRequest` leaves `p` with `q` exactly if iterations lead there, at most
`fuel` of them, and the exit flag is set. -/
theorem loop_eq_some_iff {fuel : ℕ} {p q : Parse} :
    p.loop fuel = some q ↔
      ∃ n ≤ fuel, (iterations context buf).exec p (List.replicate n ()) = some q ∧
        q.flagEnd = true := by
  induction fuel generalizing p with
  | zero =>
      constructor
      · intro hloop
        obtain ⟨hflag, rfl⟩ : p.flagEnd = true ∧ p = q := by simpa [Parse.loop] using hloop
        exact ⟨0, le_rfl, rfl, hflag⟩
      · rintro ⟨n, hn, hrun, hflag⟩
        obtain rfl := Nat.le_zero.mp hn
        cases hrun
        exact if_pos hflag
  | succ fuel ih =>
      constructor
      · intro hloop
        rw [Parse.loop] at hloop
        split at hloop
        · rename_i hflag
          cases hloop
          exact ⟨0, Nat.zero_le _, rfl, hflag⟩
        · rename_i hflag
          obtain ⟨next, hbody, hrest⟩ := Option.bind_eq_some_iff.mp hloop
          obtain ⟨n, hn, hrun, hend⟩ := ih.mp hrest
          refine ⟨n + 1, Nat.succ_le_succ hn, Option.bind_eq_some_iff.mpr ⟨next, ?_, hrun⟩, hend⟩
          rw [step_iterations, if_neg hflag, hbody]
      · rintro ⟨n, hn, hrun, hend⟩
        cases n with
        | zero =>
            cases hrun
            exact if_pos hend
        | succ n =>
            obtain ⟨next, hstep, hrest⟩ := Option.bind_eq_some_iff.mp hrun
            rw [step_iterations] at hstep
            split at hstep
            · cases hstep
            · rename_i hflag
              rw [Parse.loop, if_neg hflag, hstep]
              exact ih.mpr ⟨n, Nat.le_of_succ_le_succ hn, hrest, hend⟩

theorem goesOn_step {t : Parse} (hp : p.scan.GoesOn)
    (hstep : (iterations context buf).step p () = some t) : t.scan.GoesOn := by
  rw [step_iterations] at hstep
  cases hflag : p.flagEnd with
  | true => simp [hflag] at hstep
  | false =>
      rw [if_neg (by simp [hflag])] at hstep
      rw [scan_of_body hstep]
      exact Scan.goesOn_body (hp hflag)

end Run

/-- In every iteration of a call no assertion fails, the bytes that are read lie in the current
line, and the payload afterwards is the payload before it, or that without the line. -/
theorem iterations_inside {context : HttpContext}
    (hstate : context.state = .expectRequestLine ∨ context.state = .expectHeaders) (buf : Buffer)
    (n : ℕ) :
    (iterations context buf).Throughout
      (fun p => p.flagEnd = false →
        ∃ next reads, body p = some (next, reads) ∧ Inside p next reads)
      (iterations context buf).init (List.replicate n ()) := by
  have hinit : (iterations context buf).init.scan.GoesOn := fun _ => hstate
  have hruns := Machine.throughout_of_invariant (m := iterations context buf)
    (I := fun p => p.scan.GoesOn) (fun p _ t hp hstep => goesOn_step hp hstep) hinit
    (List.replicate n ())
  exact hruns.mono fun p hp hflag => inside_body (hp hflag)

/-- The hypothesis is met by a fresh context, here with a request in the buffer. -/
theorem iterations_inside_new :
    (iterations .new (Buffer.new.append (ascii "GET /?q HTTP/1.1\r\na:\r\n\r\n"))).Throughout
      (fun p => p.flagEnd = false →
        ∃ next reads, body p = some (next, reads) ∧ Inside p next reads)
      (iterations .new (Buffer.new.append (ascii "GET /?q HTTP/1.1\r\na:\r\n\r\n"))).init
      (List.replicate 3 ()) :=
  iterations_inside (Or.inl rfl) _ 3

end Pointers

end YxAlpha
