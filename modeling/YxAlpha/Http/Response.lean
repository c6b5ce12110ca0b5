import YxAlpha.Http.Request
import YxAlpha.Utility.Buffer

/-!
# HTTP responses

`HttpResponse` is `http/httpresponse.h`.  The header map is ordered by its keys, and
`AppendToBuffer` writes it in that order.  `snprintf` writes to a buffer of 32 bytes, so
it leaves at most 31 of what it prints.
-/

namespace YxAlpha

inductive HttpStatusCode
  | unknown | ok | movePermanently | badRequest | notFound | serviceUnavailable
  deriving DecidableEq, Repr

namespace HttpStatusCode

def toNat : HttpStatusCode → ℕ
  | unknown => 0
  | ok => 200
  | movePermanently => 301
  | badRequest => 400
  | notFound => 404
  | serviceUnavailable => 503

end HttpStatusCode

structure HttpResponse where
  headers : Headers
  statusCode : HttpStatusCode
  statusMessage : Bytes
  closeConnection : Bool
  body : Bytes

namespace HttpResponse

def new (close : Bool) : HttpResponse where
  headers := ∅
  statusCode := .unknown
  statusMessage := []
  closeConnection := close
  body := []

variable (response : HttpResponse)

def sizeofBuf : ℕ := 32

/-- The pieces `AppendToBuffer` appends, in its order. -/
def pieces : List Bytes :=
  [(ascii "HTTP/1.1 " ++ decimal response.statusCode.toNat ++ ascii " ").take (sizeofBuf - 1),
    response.statusMessage, ascii "\r\n"] ++
  (if response.closeConnection then [ascii "Connection: close\r\n"]
    else
      [(ascii "Content-Length: " ++ decimal response.body.length ++ ascii "\r\n").take
        (sizeofBuf - 1), ascii "Connection: Keep-Alive\r\n"]) ++
  response.headers.toList.flatMap (fun header => [header.1, ascii ": ", header.2, ascii "\r\n"]) ++
  [ascii "\r\n", response.body]

def appendToBuffer (output : Buffer) : Buffer := response.pieces.foldl Buffer.append output

/-- The bytes of a response. -/
def bytes : Bytes := response.pieces.flatten

theorem payload_foldl_append (output : Buffer) (pieces : List Bytes) :
    (pieces.foldl Buffer.append output).payload = output.payload ++ pieces.flatten := by
  induction pieces generalizing output with
  | nil => simp
  | cons piece pieces ih =>
      rw [List.foldl_cons, ih, Buffer.payload_append, List.append_assoc, List.flatten_cons]

theorem payload_appendToBuffer (output : Buffer) :
    (response.appendToBuffer output).payload = output.payload ++ response.bytes :=
  payload_foldl_append output response.pieces

end HttpResponse

end YxAlpha
