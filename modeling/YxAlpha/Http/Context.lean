import YxAlpha.Http.Request
import YxAlpha.Utility.Buffer

/-!
# The HTTP parser

`HttpContext` is `http/httpcontext.h` and `http/httpcontext.cc`.  A pointer into
the line handed to `ParseRequestLine` is an index of the line, so `end` is its
length and `std::find` returns the end of its range when nothing is found.

The loop of `ParseRequest` is a body and a number of iterations: `Parse.loop`
leaves it when the exit flag is set, and is `none` when the flag is still not set
after so many iterations.  The parser returns when some number of iterations
suffices.
-/

namespace YxAlpha

def questionMark : UInt8 := 63

/-- `std::find` over `[first, last)`. -/
def find (line : Bytes) (first last : ℕ) (c : UInt8) : ℕ :=
  first + ((line.take last).drop first).idxOf c

/-- The bytes of `[first, last)`. -/
def slice (line : Bytes) (first last : ℕ) : Bytes := (line.take last).drop first

/-- `strncmp` on the bytes of two strings; only the sign of the result counts. -/
def strncmp : Bytes → Bytes → ℕ → ℤ
  | a :: as, b :: bs, n + 1 =>
      if a ≠ b then (a.toNat : ℤ) - b.toNat
      else if a = 0 then 0
      else strncmp as bs n
  | _, _, _ => 0

inductive ParseState
  | expectRequestLine | expectHeaders | expectBody | done
  deriving DecidableEq, Repr

structure HttpContext where
  state : ParseState
  request : HttpRequest

namespace HttpContext

def new : HttpContext where
  state := .expectRequestLine
  request := .new

def isDone (context : HttpContext) : Bool := context.state = .done

/-- `Reset` puts the state back; the fresh request it constructs is a local
variable, so `request_` is left as it is. -/
def reset (context : HttpContext) : HttpContext := { context with state := .expectRequestLine }

end HttpContext

/-- `ParseRequestLine`: whether the line is accepted, and the request after it.
The request is also written to on the way to a rejection. -/
def parseRequestLine (request : HttpRequest) (line : Bytes) : Bool × HttpRequest :=
  let stop := line.length
  let afterMethod := find line 0 stop space
  if afterMethod = stop then (false, request)
  else
    let known := (request.setMethod (slice line 0 afterMethod)).1
    let request := (request.setMethod (slice line 0 afterMethod)).2
    if known = false then (false, request)
    else
      let start := afterMethod + 1
      let afterTarget := find line start stop space
      if afterTarget = stop then (false, request)
      else
        let question := find line start afterTarget questionMark
        -- The source compares with the end of the line here, not with the end of
        -- the target, so the first branch is the one taken without a '?' too.
        let request :=
          if question ≠ stop then
            (request.setPath (slice line start question)).setQuery (slice line question afterTarget)
          else request.setPath (slice line start afterTarget)
        let start := afterTarget + 1
        -- `strncmp` is not compared with zero: a version that differs from
        -- "HTTP/1." is what makes the condition hold.
        if stop - start = 8 ∧
            strncmp (line.drop start) (ascii "HTTP/1." ++ [0]) (stop - start) ≠ 0 then
          let ch := line.getD (stop - 1) 0
          if ch = 49 then (true, request.setVersion .http11)
          else if ch = 48 then (true, request.setVersion .http10)
          else (false, request.setVersion .unknown)
        else (false, request)

/-- Whether `ParseRequestLine` accepts a line. -/
def accepts (line : Bytes) : Bool := (parseRequestLine .new line).1

/-- The variables of `ParseRequest`: the members of the context, the buffer it
reads, and the two flags of its loop. -/
structure Parse where
  context : HttpContext
  buf : Buffer
  ok : Bool
  flagEnd : Bool

namespace Parse

/-- One iteration of the loop; `none` is a failed assertion of the buffer. -/
def body (p : Parse) : Option Parse :=
  match p.context.state with
  | .expectRequestLine =>
      match p.buf.findCRLF with
      | some stop =>
          let (ok, request) :=
            parseRequestLine p.context.request (slice p.buf.buffer p.buf.readIndex stop)
          if ok then
            (p.buf.moveReadIndexUntil (stop + 2)).map fun buf =>
              { p with context := ⟨.expectHeaders, request⟩, buf, ok }
          else some { p with context := ⟨.expectRequestLine, request⟩, ok, flagEnd := true }
      | none => some { p with flagEnd := true }
  | .expectHeaders =>
      match p.buf.findCRLF with
      | some stop =>
          let line := slice p.buf.buffer p.buf.readIndex stop
          let parsed : Parse :=
            if line.idxOf colon ≠ line.length then
              let request := p.context.request.addHeader (line.take (line.idxOf colon))
                (line.drop (line.idxOf colon + 1))
              { p with context := ⟨.expectHeaders, request⟩ }
            else { p with context := ⟨.done, p.context.request⟩, flagEnd := true }
          (p.buf.moveReadIndexUntil (stop + 2)).map fun buf => { parsed with buf }
      -- The branch without a complete line clears the exit flag.
      | none => some { p with flagEnd := false }
  | .expectBody => some p
  | .done => some p

/-- The loop, for at most so many iterations. -/
def loop : ℕ → Parse → Option Parse
  | 0, p => if p.flagEnd then some p else none
  | fuel + 1, p => if p.flagEnd then some p else p.body.bind (loop fuel)

end Parse

/-- `ParseRequest`, for at most `fuel` iterations of its loop: the result, the
context and the buffer it leaves. -/
def HttpContext.parseRequest (fuel : ℕ) (context : HttpContext) (buf : Buffer) :
    Option (Bool × HttpContext × Buffer) :=
  (Parse.loop fuel ⟨context, buf, true, false⟩).map fun p => (p.ok, p.context, p.buf)

end YxAlpha
