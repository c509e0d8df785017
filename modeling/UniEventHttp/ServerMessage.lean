import UniEventHttp.Errors

namespace UniEventHttp

/-!
# Requests and responses of the server

A request is named by its number in the order of creation and lives in a store
of the connection.  A `ServerResponse` belongs to the one request it is given
to, so it is kept in that request; the back reference
`ServerResponse::_request` is the name under which it is found there.
-/

/-- What the parser knows about a request once its headers are finished. -/
structure RequestHead where
  /-- `keep_alive()` -/
  keepAlive : Bool := true
  /-- `headers.connection()` -/
  connection : String := ""
  /-- `expects_continue()` -/
  expectsContinue : Bool := false
  /-- `http_version`: 10 or 11 -/
  httpVersion : Nat := 11
  deriving Repr, DecidableEq

/-- `ServerResponse` -/
structure ServerResponse where
  code : Nat := 0
  /-- The `Date` header, if it has been set. -/
  date : Option String := none
  chunked : Bool := false
  /-- `body.parts` -/
  body : List Data := []
  /-- `keep_alive()` -/
  keepAlive : Bool := true
  /-- `_completed` -/
  completed : Bool := false
  deriving Repr, DecidableEq

/-- `ServerRequest` -/
structure ServerRequest where
  /-- `_connection != nullptr` -/
  connection : Bool := false
  /-- `_response` -/
  response : Option ServerResponse := none
  /-- `_routed` -/
  routed : Bool := false
  /-- `_partial` -/
  partialMode : Bool := false
  /-- `_finish_on_receive` -/
  finishOnReceive : Bool := false
  /-- `_is_done` -/
  isDone : Bool := false
  /-- The parsed headers, once they are finished. -/
  head : Option RequestHead := none
  deriving Repr, DecidableEq

namespace ServerRequest

/-- The headers, or those of an empty message before any have arrived. -/
def headers (request : ServerRequest) : RequestHead :=
  request.head.getD {}

/-- The response has been given and its last part is known. -/
def responseCompleted (request : ServerRequest) : Bool :=
  match request.response with
  | none => false
  | some response => response.completed

end ServerRequest

namespace ServerResponse

/-- `body.length()` -/
def bodyLength (response : ServerResponse) : Nat :=
  (response.body.map List.length).sum

/-- The chunks that `write_next_response` moves out of the body. -/
def tmpChunks (response : ServerResponse) : List Data :=
  if response.chunked && !response.completed && response.bodyLength != 0 then
    response.body
  else
    []

/-- The response without the chunks that are moved out of its body. -/
def withoutTmpChunks (response : ServerResponse) : ServerResponse :=
  if response.chunked && !response.completed && response.bodyLength != 0 then
    { response with body := [] }
  else
    response

/-- The defaults that `write_next_response` fills in before serialising. -/
def withDefaults
    (response : ServerResponse)
    (dateHeaderNow : String) :
    ServerResponse :=
  { response with
    code := if response.code = 0 then 200 else response.code
    date := some (response.date.getD dateHeaderNow) }

end ServerResponse

/-- One `write` on the stream, before serialisation. -/
inductive Piece where
  /-- `HTTP/1.1 100 Continue` -/
  | continue100 (req : Nat)
  /-- `to_vector(req)`: status line, headers and the body given so far. -/
  | head (req : Nat) (response : ServerResponse)
  /-- `make_chunk` -/
  | chunk (req : Nat) (data : Data)
  /-- `final_chunk` -/
  | finalChunk (req : Nat) (data : Data)
  deriving Repr, DecidableEq

namespace Piece

/-- The request whose response the piece belongs to. -/
def req : Piece → Nat
  | .continue100 req => req
  | .head req _ => req
  | .chunk req _ => req
  | .finalChunk req _ => req

/-- The body data that a piece carries. -/
def data : Piece → Data
  | .continue100 _ => []
  | .head _ response => response.body.flatten
  | .chunk _ data => data
  | .finalChunk _ data => data

end Piece

end UniEventHttp
