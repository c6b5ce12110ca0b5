import Mathlib.Data.List.DropRight
import YxAlpha.Utility.Buffer

/-!
# HTTP requests

`HttpRequest` is `http/httprequest.h`.  A pair of pointers into the input buffer
is the list of the bytes between them, and `headers_` is an ordered map with
equality by content.
-/

namespace YxAlpha

def space : UInt8 := 32

def colon : UInt8 := 58

inductive Method
  | invalid | get | post | head | put | delete
  deriving DecidableEq, Repr

inductive Version
  | unknown | http10 | http11
  deriving DecidableEq, Repr

abbrev Headers := Std.ExtTreeMap Bytes Bytes

structure HttpRequest where
  method : Method
  version : Version
  path : Bytes
  query : Bytes
  headers : Headers

namespace HttpRequest

def new : HttpRequest where
  method := .invalid
  version := .unknown
  path := []
  query := []
  headers := ∅

/-- The method `set_method` stores for a token; `DELETE` is stored as `GET`. -/
def methodOf (token : Bytes) : Method :=
  if token = ascii "GET" then .get
  else if token = ascii "POST" then .post
  else if token = ascii "HEAD" then .head
  else if token = ascii "PUT" then .put
  else if token = ascii "DELETE" then .get
  else .invalid

def setMethod (request : HttpRequest) (token : Bytes) : Bool × HttpRequest :=
  (methodOf token ≠ .invalid, { request with method := methodOf token })

def setVersion (request : HttpRequest) (version : Version) : HttpRequest :=
  { request with version }

def setPath (request : HttpRequest) (path : Bytes) : HttpRequest := { request with path }

def setQuery (request : HttpRequest) (query : Bytes) : HttpRequest := { request with query }

/-- `AddHeader(start, colon, end)`: `field` is the text before the colon, `rest`
the text behind it. -/
def addHeader (request : HttpRequest) (field rest : Bytes) : HttpRequest :=
  let value := (rest.dropWhile isSpace).rdropWhile isSpace
  { request with headers := request.headers.insert field value }

/-- `GetHeader`: the empty string for a field that is not there. -/
def getHeader (request : HttpRequest) (field : Bytes) : Bytes := request.headers.getD field []

end HttpRequest

/-! ## Header lines -/

/-- The field name of a header line, the text before its first colon. -/
def fieldOf (line : Bytes) : Bytes := line.take (line.idxOf colon)

/-- What `AddHeader` stores for a header line. -/
def valueOf (line : Bytes) : Bytes :=
  ((line.drop (line.idxOf colon + 1)).dropWhile isSpace).rdropWhile isSpace

def HttpRequest.addHeaderLine (request : HttpRequest) (line : Bytes) : HttpRequest :=
  request.addHeader (fieldOf line) (line.drop (line.idxOf colon + 1))

/-- The map after the header lines `lines`, the last line with a name winning. -/
def storeHeaders (headers : Headers) (lines : List Bytes) : Headers :=
  lines.foldl (fun stored line => stored.insert (fieldOf line) (valueOf line)) headers

theorem headers_foldl_addHeaderLine (request : HttpRequest) (lines : List Bytes) :
    lines.foldl HttpRequest.addHeaderLine request =
      { request with headers := storeHeaders request.headers lines } := by
  induction lines generalizing request with
  | nil => rfl
  | cons line lines ih =>
      rw [List.foldl_cons, ih]
      rfl

/-- One more line decides about the field it names. -/
theorem getElem?_storeHeaders_append (headers : Headers) (lines : List Bytes)
    (line field : Bytes) :
    (storeHeaders headers (lines ++ [line]))[field]? =
      if fieldOf line = field then some (valueOf line)
      else (storeHeaders headers lines)[field]? := by
  rw [storeHeaders, List.foldl_append, List.foldl_cons, List.foldl_nil,
    Std.ExtTreeMap.getElem?_insert]
  by_cases h : fieldOf line = field
  · rw [if_pos h, h, if_pos Std.ReflCmp.compare_self]
  · rw [if_neg h, if_neg fun heq => h (Std.LawfulEqCmp.eq_of_compare heq)]
    rfl

/-- A field keeps its earlier value exactly when no line names it. -/
theorem getElem?_storeHeaders (headers : Headers) (lines : List Bytes) (field : Bytes) :
    (storeHeaders headers lines)[field]? =
      ((storeHeaders ∅ lines)[field]?).or headers[field]? := by
  induction lines using List.reverseRecOn with
  | nil => simp [storeHeaders]
  | append_singleton lines line ih =>
      rw [getElem?_storeHeaders_append, getElem?_storeHeaders_append, ih]
      split <;> rfl

theorem isSome_getElem?_storeHeaders (lines : List Bytes) (field : Bytes) :
    (storeHeaders ∅ lines)[field]?.isSome ↔ field ∈ lines.map fieldOf := by
  induction lines using List.reverseRecOn with
  | nil => simp [storeHeaders]
  | append_singleton lines line ih =>
      rw [getElem?_storeHeaders_append, List.map_append, List.mem_append]
      by_cases h : fieldOf line = field
      · simp [h]
      · rw [if_neg h, ih]
        simp [Ne.symm h]

/-- The last line with a name decides about its value. -/
theorem getElem?_storeHeaders_empty (lines : List Bytes) (field : Bytes) :
    (storeHeaders ∅ lines)[field]? =
      ((lines.filter fun line => fieldOf line = field).getLast?).map valueOf := by
  induction lines using List.reverseRecOn with
  | nil => simp [storeHeaders]
  | append_singleton lines line ih =>
      rw [getElem?_storeHeaders_append, List.filter_append]
      by_cases h : fieldOf line = field
      · simp [h]
      · rw [if_neg h, ih]
        simp [h]

end YxAlpha
