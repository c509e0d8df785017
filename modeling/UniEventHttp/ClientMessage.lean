import UniEventHttp.Errors

namespace UniEventHttp.ClientSide

/-!
# Requests and responses of the client

A `Request` is an object that the application keeps and may submit again, so it
is named by a number and lives in a store; a `Client` is named in the same way.
`RequestFields` are its public members, which the application may write at any
time; the other fields belong to the library.
-/

/-- Header fields, in order. -/
abbrev Headers := List (String × String)

/-- `Request::Cookies`, and the `Set-Cookie` fields of a response. -/
abbrev Cookies := List (String × String)

/-- `headers.has(name)`; names of header fields are compared without case. -/
def hasHeader (headers : Headers) (name : String) : Bool :=
  headers.any fun field => iequals field.1 name

/-- `URI`, as far as the client looks at it; an absent part is empty. -/
structure Uri where
  scheme : String := ""
  host : String := ""
  /-- `explicit_port()`, 0 if there is none. -/
  explicitPort : Nat := 0
  path : String := "/"
  query : String := ""
  /-- `user_info()` -/
  userInfo : String := ""
  deriving Repr, DecidableEq

/-- The schemes that the library of `URI` knows. -/
structure Schemes where
  /-- The default port, 0 for an unknown scheme. -/
  port : String → Nat
  /-- `secure()` -/
  secure : String → Bool

/-- The schemes of `panda/uri`. -/
def Schemes.default : Schemes where
  port scheme :=
    if scheme = "http" ∨ scheme = "ws" then 80
    else if scheme = "https" ∨ scheme = "wss" then 443
    else if scheme = "socks5" then 1080
    else 0
  secure scheme := scheme = "https" || scheme = "wss"

/-- `URI::port()`: the explicit port, or else the one of the scheme. -/
def Uri.port (uri : Uri) (schemes : Schemes) : Nat :=
  if uri.explicitPort = 0 then schemes.port uri.scheme else uri.explicitPort

/-- `URI::secure()` -/
def Uri.secure (uri : Uri) (schemes : Schemes) : Bool :=
  schemes.secure uri.scheme

/-- `if (!request->uri->scheme()) request->uri->scheme("http");` -/
def Uri.withScheme (uri : Uri) : Uri :=
  if uri.scheme = "" then { uri with scheme := "http" } else uri

/--
`NetLoc`.  A TLS context is named by a number; so is a proxy, which the source
compares by address.
-/
structure NetLoc where
  host : String := ""
  port : Nat := 0
  sslCtx : Option Nat := none
  proxy : Option Nat := none
  sslCheckCert : Bool := true
  deriving Repr, DecidableEq

/-- `Request::Method` -/
inductive Method where
  | unspecified
  | options
  | get
  | head
  | post
  | put
  | delete
  | trace
  | connect
  deriving Repr, DecidableEq

/-- `FormField`, `FormEmbeddedFile` and `FormFile`. -/
inductive FormItem where
  | field (name content : String)
  | embeddedFile (name content mimeType filename : String)
  | file (name mimeType filename : String)
  deriving Repr, DecidableEq

/-- What changes in a `FormFile`. -/
structure Streaming where
  /-- `in` has been moved into a streamer. -/
  given : Bool := false
  /-- The client that the streamer writes to, while there is a streamer. -/
  streamer : Option Nat := none
  /-- The streamer has not finished. -/
  running : Bool := false
  deriving Repr, DecidableEq

/-- The public members of `Request`. -/
structure RequestFields where
  method : Method := .unspecified
  uri : Option Uri := none
  headers : Headers := []
  cookies : Cookies := []
  body : Data := []
  chunked : Bool := false
  /-- `keep_alive()` -/
  keepAlive : Bool := true
  /-- In milliseconds; 0 is no timeout. -/
  timeout : Nat := 20000
  /-- 0 is the same as `timeout`. -/
  connectTimeout : Nat := 0
  followRedirect : Bool := true
  redirectionLimit : Nat := 20
  sslCtx : Option Nat := none
  proxy : Option Nat := none
  form : List FormItem := []
  /-- `form_streaming()` -/
  formStreaming : Bool := false
  sslCheckCert : Bool := true
  deriving Repr, DecidableEq

/-- `Timer`, as far as a request uses it. -/
structure Timer where
  loop : Nat
  /-- When it fires, while it is active. -/
  deadline : Option Nat := none
  /-- The request is its event listener. -/
  listened : Bool := false
  deriving Repr, DecidableEq

/-- A listener of a request's response event or redirect event. -/
inductive Listener where
  | application
  /-- The one that `UserAgent::request` adds. -/
  | agent (agent : Nat) (contextUri : Uri) (topLevel : Bool)
  deriving Repr, DecidableEq

/-- `Request` -/
structure Request extends RequestFields where
  /-- `_redirection_counter` -/
  redirectionCounter : Nat := 0
  /-- `_transfer_completed` -/
  transferCompleted : Bool := false
  /-- `_client` -/
  client : Option Nat := none
  /-- `_pool` -/
  pool : Option Nat := none
  /-- `_timer` -/
  timer : Option Timer := none
  /-- The state of each item of the form. -/
  streaming : Nat → Streaming := fun _ => {}
  responseListeners : List Listener := [.application]
  redirectListeners : List Listener := [.application]

namespace Request

/-- `uri`, where `check` has found one. -/
def target (request : Request) : Uri :=
  request.uri.getD {}

/-- `Request::check`: the message of the exception, if there is one. -/
def check (request : Request) : Option String :=
  match request.uri with
  | none => some "request must have uri"
  | some uri => if uri.host = "" then some "uri must have host" else none

/-- `Request::ensure_timer_active`, at the time `now` of a loop. -/
def ensureTimerActive
    (request : Request)
    (loop : Nat)
    (now : Nat → Nat) :
    Request :=
  if request.timeout = 0 then
    request
  else
    let timer := request.timer.getD { loop := loop }
    { request with
      timer := some
        { timer with
          -- if active it may be a redirected request
          deadline := some
            (timer.deadline.getD (now timer.loop + request.timeout))
          listened := true } }

/-- `Request::cleanup_after_redirect` -/
def cleanupAfterRedirect (request : Request) : Request :=
  { request with
    client := none
    transferCompleted := false
    timer := request.timer.map fun timer => { timer with listened := false } }

/-- `Request::finish_and_notify`, up to its first callback. -/
def finished (request : Request) : Request :=
  { request.cleanupAfterRedirect with
    redirectionCounter := 0
    pool := none
    timer := request.timer.map fun timer =>
      { timer with deadline := none, listened := false } }

end Request

/-- `Response` -/
structure Response where
  code : Nat := 0
  /-- `keep_alive()` -/
  keepAlive : Bool := true
  /-- The `Location` header, if it is there and not empty. -/
  location : Option Uri := none
  cookies : Cookies := []
  /-- `_is_done` -/
  isDone : Bool := false
  deriving Repr, DecidableEq

/-- `is_redirect` -/
def isRedirect (code : Nat) : Bool :=
  [300, 301, 302, 303, 307, 308].contains code

/-- What one `parse_shift` call reports about the response it works on. -/
inductive Parsed where
  /-- The headers are not finished. -/
  | headers
  /-- The headers are finished and the body is not. -/
  | body (response : Response)
  /-- The response is finished; the rest of the buffer is left. -/
  | done (response : Response)
  | error (error : ErrorCode) (response : Response)
  deriving Repr, DecidableEq

namespace Parsed

/-- `result.state >= State::done` -/
def isDone : Parsed → Bool
  | .headers => false
  | .body _ => false
  | .done _ => true
  | .error _ _ => true

/-- The parser still has its context request afterwards. -/
def keepsContext : Parsed → Bool
  | .headers => true
  | .body _ => true
  | .done response => response.code == 100
  | .error _ _ => false

/-- `result.response`, with `_is_done` set. -/
def response (result : Parsed) : Response :=
  let response : Response :=
    match result with
    | .headers => {}
    | .body response => response
    | .done response => response
    | .error _ response => response
  { response with isDone := result.isDone }

end Parsed

/-- `RedirectContext` -/
structure RedirectContext where
  uri : Uri
  sslCtx : Option Nat
  cookies : Cookies
  removedHeaders : Headers
  deriving Repr, DecidableEq

/-- The header fields that a redirect removes. -/
def isRemovedHeader (name : String) : Bool :=
  name == "Authorization" || name == "Cookie" || name == "Host" ||
    name == "Referer"

/-- The uri that a redirect leads to, from the one that it comes from. -/
def redirectUri (location previous : Uri) : Uri :=
  let uri :=
    if location.scheme = "" then
      { location with scheme := previous.scheme }
    else
      location
  if uri.host = "" then
    { uri with
      host := previous.host
      explicitPort :=
        if previous.explicitPort = 0 then
          uri.explicitPort
        else
          previous.explicitPort }
  else
    uri

/-- The request after the part of `analyze_request` before the redirect callback. -/
def Request.redirectedTo (request : Request) (location : Uri) : Request :=
  { request with
    headers := request.headers.filter fun field => !isRemovedHeader field.1
    sslCtx := none
    cookies := []
    uri := some (redirectUri location request.target) }

/-- What the redirect callback is given. -/
def Request.redirectContext (request : Request) : RedirectContext where
  uri := request.target
  sslCtx := request.sslCtx
  cookies := request.cookies
  removedHeaders := request.headers.filter fun field => isRemovedHeader field.1

/-- One `write` of a client, before serialisation. -/
inductive Piece where
  /-- `to_vector()`: request line, headers and body. -/
  | head (req : Nat) (fields : RequestFields)
  /-- `make_chunk` -/
  | chunk (req : Nat) (data : Data)
  /-- `final_chunk` -/
  | finalChunk (req : Nat) (data : Data)
  | formField (req : Nat) (name content : String)
  | formFile (req : Nat) (name filename mimeType : String)
  | formData (req : Nat) (content : Data)
  | formFinish (req : Nat)
  deriving Repr, DecidableEq

/-- The request that a piece belongs to. -/
def Piece.req : Piece → Nat
  | .head req _ => req
  | .chunk req _ => req
  | .finalChunk req _ => req
  | .formField req _ _ => req
  | .formFile req _ _ _ => req
  | .formData req _ => req
  | .formFinish req => req

end UniEventHttp.ClientSide
