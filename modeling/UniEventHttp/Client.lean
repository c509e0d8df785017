import Mathlib.Data.List.MinMax
import UniEventHttp.CallMachine
import UniEventHttp.ClientMessage

namespace UniEventHttp.ClientSide

/-!
# Clients, pools and user agents

`Client`, `Pool` and `UserAgent` with the requests that pass between them.  As
for the server, a function that calls application code is cut at these calls,
and the parts after the callbacks are the frames of a call machine.

Streams, timers, TLS, proxies, the parser and the cookie jar are code of other
libraries.  A read buffer is represented by what `parse_shift` reports while
`on_read` loops over it.  A stream that is reset reports its pending operations
to a client without a request, which does nothing.  The parser keeps its
context request until a response is done, and after a `100 Continue`.  Streamers
deliver data and completion only after `start()` has returned, and one that is
started without an input ends the run.  An `assert` is checked, as in a debug
build.  All loops belong to one thread.  Objects live as long as something
refers to them, and a pool as long as the run.
-/

/-- The callbacks of a request. -/
inductive Callback where
  | partialEvent (req : Nat) (response : Response) (error : Option ErrorCode)
  | responseEvent (req : Nat) (response : Response) (error : Option ErrorCode)
  | redirectEvent (client req : Nat) (response : Response)
      (context : RedirectContext)
  | continueEvent (req : Nat)
  deriving Repr, DecidableEq

/-- The context that a TLS layer is made of. -/
inductive TlsContext where
  /-- `request->ssl_ctx` -/
  | given (context : Nat)
  /-- `_default_ssl_context()` -/
  | unverified
  /-- `_verify_ssl_context()` -/
  | verifying
  deriving Repr, DecidableEq

/-- How `Client::request` sets up the TLS layer of a connection. -/
structure TlsSetup where
  context : TlsContext
  /-- `SSL_set_tlsext_host_name` -/
  hostName : String
  /-- `X509_VERIFY_PARAM_set1_host` -/
  checksHost : Bool
  deriving Repr, DecidableEq

/-- What is observed of the clients, in order. -/
inductive Event where
  /-- A submission by the application is accepted, by a pool or by a client. -/
  | accepted (req : Nat) (pool : Option Nat) (loop time timeout : Nat)
  /-- `Pool::request` puts the request into a queue. -/
  | queued (pool req : Nat)
  /-- `Client::request` starts the request. -/
  | started (client req : Nat)
  /-- `Request::finish_and_notify` ends the submission. -/
  | finished (req : Nat)
  /-- `Tcp::connect`, with the filters of the new connection. -/
  | opened (client connection : Nat) (netloc : NetLoc) (timeout : Nat)
      (tls : Option TlsSetup) (socks : Option Nat)
  /-- `write` on a connection. -/
  | wrote (client connection : Nat) (piece : Piece)
  /-- The stream delivers a buffer. -/
  | delivered (client connection buffer : Nat)
  /-- The parser consumes bytes of a buffer for its context request. -/
  | parsed (client buffer req : Nat)
  /-- The stream delivers an end of file. -/
  | ended (client connection : Nat)
  | fired (callback : Callback)
  /-- `jar->collect` -/
  | collected (agent : Nat) (cookies : Cookies) (uri : Uri)
  /-- `jar->populate` -/
  | populated (agent req : Nat) (uri : Uri) (cookies : Cookies)
  | threw (exception : Exception)
  deriving Repr, DecidableEq

/-- The phases of a stream. -/
inductive TcpStatus where
  | closed
  | connecting
  | connected
  /-- The peer has ended a stream that no longer counts as connected. -/
  | ended
  deriving Repr, DecidableEq

/-- `Tcp`, as far as the client uses it. -/
structure Tcp where
  status : TcpStatus := .closed
  /-- The name of the connection that is open or being opened. -/
  connection : Option Nat := none
  /-- An end of file has been delivered. -/
  eof : Bool := false
  /-- The TLS layer among the filters. -/
  tls : Option TlsSetup := none
  /-- The proxy of the SOCKS layer among the filters. -/
  socks : Option Nat := none
  /-- The number of unfinished writes. -/
  writeQueue : Nat := 0
  weak : Bool := false
  deriving Repr, DecidableEq

/-- `Client` -/
structure Client where
  loop : Nat := 0
  /-- `_pool` -/
  pool : Option Nat := none
  /-- `_netloc` -/
  netloc : NetLoc := {}
  /-- `_request` -/
  request : Option Nat := none
  /-- `_response` -/
  response : Option Response := none
  /-- `_parser.context_request()` -/
  parsing : Option Nat := none
  /-- `_last_activity_time` -/
  lastActivityTime : Nat := 0
  /-- `_in_redirect` -/
  inRedirect : Bool := false
  /-- `_redirect_canceled` -/
  redirectCanceled : Bool := false
  /-- `_form_field` -/
  formField : Int := -1
  tcp : Tcp := {}

/-- One place in a queue; the ticket tells places of one request apart. -/
structure Place where
  ticket : Nat
  req : Nat
  deriving Repr, DecidableEq

/-- `NetLocList` -/
structure NetLocList where
  free : List Nat := []
  busy : List Nat := []
  queue : List Place := []
  /-- Changes when the iterators of the queue become invalid. -/
  generation : Nat := 0
  nextTicket : Nat := 0
  deriving Repr, DecidableEq

/-- `Pool` -/
structure Pool where
  loop : Nat := 0
  /-- `_max_connections` -/
  maxConnections : Nat := 10
  /-- `_idle_timeout`, 0 if there is no idle timer. -/
  idleTimeout : Nat := 60000
  /-- `_clients` -/
  clients : NetLoc → Option NetLocList := fun _ => none

/-- What a cookie jar has been given: cookies, their uri and the time. -/
structure Collected where
  cookies : Cookies
  uri : Uri
  time : Nat
  deriving Repr, DecidableEq

/-- `UserAgent` -/
structure UserAgent where
  pool : Nat := 0
  identity : Option String := none
  sslCtx : Option Nat := none
  proxy : Option Nat := none
  /-- `_cookie_jar`, as the history of what was collected. -/
  jar : List Collected := []

/-- What is fixed during a run, and what other libraries provide. -/
structure WorldConfig where
  schemes : Schemes := .default
  /-- The uri of a proxy. -/
  proxyUri : Nat → Uri := fun _ => {}
  /-- The order of the addresses of clients, which `std::set` goes by. -/
  address : Nat → Nat := id
  /-- `connected()` is false after an end of file. -/
  eofDisconnects : Bool := false
  /-- The answer of `SSL_CTX_set_default_verify_paths`. -/
  setsVerifyPaths : Bool := true
  /-- `Streamer::Streamer(std::move(in), ...)` leaves `in` null. -/
  takesInput : Bool := false
  /-- `jar->populate`, from the cookies before. -/
  populate : (jar : List Collected) → (before : Cookies) → (uri : Uri) →
      (contextUri : Uri) → (topLevel : Bool) → (time : Nat) → Cookies :=
    fun jar _ uri _ _ _ =>
      (jar.filter fun entry => entry.uri.host = uri.host).flatMap (·.cookies)

/-- All clients, pools, user agents and requests. -/
structure World where
  config : WorldConfig
  requests : Nat → Request := fun _ => {}
  clients : Nat → Client := fun _ => {}
  pools : Nat → Pool := fun _ => {}
  agents : Nat → UserAgent := fun _ => {}
  /-- `loop()->now()` -/
  now : Nat → Nat := fun _ => 0
  /-- The `instance` of `_verify_ssl_context` has been made. -/
  verifyContext : Bool := false
  /-- The name of the next client. -/
  nextClient : Nat := 0
  /-- The name of the next connection. -/
  nextConnection : Nat := 0
  /-- The name of the next read buffer. -/
  nextBuffer : Nat := 0
  /-- What has been observed so far. -/
  trace : List Event := []

/-- The code that is to be executed when the frames above have returned. -/
inductive Frame where
  /-- Application code is running. -/
  | callback (callback : Callback)
  /-- An event is dispatched to its listeners. -/
  | fire (callback : Callback)
  /-- The listener of `response_event` that a user agent has added. -/
  | agentResponse (agent req : Nat) (response : Response)
      (error : Option ErrorCode)
  /-- The listener of `redirect_event` that a user agent has added. -/
  | agentRedirect (agent : Nat) (contextUri : Uri) (topLevel : Bool)
      (client : Nat) (context : RedirectContext)
  /-- `while (buf)` of `on_read`. -/
  | onRead (client buffer : Nat) (buf : List Parsed)
  /-- `analyze_request` after `continue_event`. -/
  | continued (client : Nat)
  /-- `analyze_request` after `redirect_event`, in the `try` block. -/
  | redirected (client : Nat)
  /-- The `catch` block of `analyze_request`. -/
  | redirectCatch (client : Nat)
  /-- `throw;` -/
  | rethrow
  /-- `Pool::cancel_request` after `finish_and_notify`. -/
  | cancelReturn (pool : Nat) (netloc : NetLoc) (ticket generation : Nat)
  deriving Repr, DecidableEq

/-- The assertions and the undefined behaviour that may end a run. -/
inductive Fault where
  /-- A member of a null `_request`. -/
  | nullRequest
  /-- A member of a null `_response`. -/
  | nullResponse
  /-- A null uri. -/
  | nullUri
  /-- `assert(_request == req)` of the chunk functions. -/
  | sendOther
  /-- `assert(_request)` of `send_form`. -/
  | sendFormIdle
  /-- A form item that does not exist. -/
  | formIndex
  /-- A streamer without an input. -/
  | nullInput
  /-- A null streamer. -/
  | nullStreamer
  /-- `assert(it != _clients.end())` of `putback`. -/
  | putbackNoEntry
  /-- `assert(busy_pos != it->second.busy.end())` of `putback`. -/
  | putbackNotBusy
  /-- `assert(it != _clients.end())` of `cancel_request`. -/
  | cancelNoEntry
  /-- `assert(found)` of `cancel_request`. -/
  | cancelNotFound
  /-- `q.erase(it)` with an iterator that is no longer valid. -/
  | invalidIterator
  deriving Repr, DecidableEq

/-- Entry points: calls of the application and events of the loop. -/
inductive Input where
  /-- The application writes the public members of a request. -/
  | edit (req : Nat) (fields : RequestFields)
  /-- The application adds a listener of `response_event` and `redirect_event`. -/
  | listen (req : Nat)
  /-- `new Client(loop)` -/
  | newClient (loop : Nat)
  /-- `Client::request` -/
  | clientRequest (client req : Nat)
  /-- `Pool::request` -/
  | poolRequest (pool req : Nat)
  /-- `UserAgent::request` -/
  | agentRequest (agent req : Nat) (contextUri : Uri) (topLevel : Bool)
  /-- `Request::cancel` -/
  | cancel (req : Nat) (error : Option ErrorCode)
  /-- `Client::cancel` -/
  | clientCancel (client : Nat) (error : Option ErrorCode)
  /-- `Request::send_chunk` -/
  | sendChunk (req : Nat) (data : Data)
  /-- `Request::send_final_chunk` -/
  | sendFinalChunk (req : Nat) (data : Data)
  /-- `Pool::max_connections` -/
  | maxConnections (pool value : Nat)
  /-- Time passes on a loop. -/
  | advance (loop milliseconds : Nat)
  | onConnect (client : Nat) (error : Option ErrorCode)
  | onWrite (client : Nat) (error : Option ErrorCode)
  | onRead (client : Nat) (buf : List Parsed)
  | onReadError (client : Nat) (error : ErrorCode)
  /-- `on_eof`, and what `_parser.eof()` reports. -/
  | onEof (client : Nat) (error : Option ErrorCode) (response : Response)
  /-- The timer of a request fires. -/
  | onTimer (req : Nat)
  /-- A streamer produces data. -/
  | streamData (req item : Nat) (data : Data)
  /-- A streamer finishes. -/
  | streamFinish (req item : Nat) (error : Option ErrorCode)
  /-- The idle timer of a pool fires. -/
  | checkInactivity (pool : Nat)
  deriving Repr, DecidableEq

/-- What a piece of code ends with. -/
abbrev Step := CallMachine.Outcome World Frame Fault

/-- What a piece of code that calls no application code ends with. -/
inductive Straight where
  | ok (world : World)
  /-- An exception leaves the code. -/
  | raise (world : World)
  | fault (reason : Fault)

namespace Straight

/-- Straight code, and then more of it. -/
def andThen (first : Straight) (second : World → Straight) : Straight :=
  match first with
  | .ok w => second w
  | .raise w => .raise w
  | .fault reason => .fault reason

/-- Straight code, and then code that may call the application. -/
def before (first : Straight) (second : World → Step) : Step :=
  match first with
  | .ok w => second w
  | .raise w => .raise w
  | .fault reason => .fault reason

end Straight

/-- Code, and then the code of these frames. -/
def andFrames (step : Step) (frames : List Frame) : Step :=
  match step with
  | .next w first => .next w (first ++ frames)
  | .raise w => .raise w
  | .fault reason => .fault reason

/-- The network location of a request: `Request::netloc`. -/
def WorldConfig.netloc (config : WorldConfig) (fields : RequestFields) : NetLoc :=
  let uri := fields.uri.getD {}
  let direct : NetLoc :=
    { host := uri.host
      port := uri.port config.schemes
      sslCtx := fields.sslCtx
      proxy := fields.proxy
      sslCheckCert := fields.sslCheckCert }
  match fields.proxy with
  | none => direct
  | some proxy =>
      let proxyUri := config.proxyUri proxy
      if proxyUri.scheme = "http" then
        { host := proxyUri.host
          port := proxyUri.port config.schemes
          sslCheckCert := false }
      else
        direct

/-- The TLS layer that a request needs, if its uri is secure. -/
def WorldConfig.tlsSetup
    (config : WorldConfig)
    (fields : RequestFields) :
    Option TlsSetup :=
  let uri := fields.uri.getD {}
  if uri.secure config.schemes then
    some
      { context :=
          match fields.sslCtx with
          | some context => .given context
          | none => if fields.sslCheckCert then .verifying else .unverified
        hostName := uri.host
        checksHost := fields.sslCheckCert }
  else
    none

/-- The TLS layer of a request is made of `_verify_ssl_context()`. -/
def WorldConfig.verifies
    (config : WorldConfig)
    (fields : RequestFields) :
    Bool :=
  (fields.uri.getD {}).secure config.schemes &&
    (fields.sslCtx.isNone && fields.sslCheckCert)

namespace World

/-- Record an observation. -/
def emit (w : World) (event : Event) : World :=
  { w with trace := w.trace ++ [event] }

/-- Replace one request. -/
def setRequest (w : World) (r : Nat) (request : Request) : World :=
  { w with requests := Function.update w.requests r request }

/-- Replace one client. -/
def setClient (w : World) (c : Nat) (client : Client) : World :=
  { w with clients := Function.update w.clients c client }

/-- Replace the stream of one client. -/
def setTcp (w : World) (c : Nat) (tcp : Tcp) : World :=
  w.setClient c { w.clients c with tcp := tcp }

/-- Replace the list of one network location of a pool. -/
def setEntry
    (w : World)
    (p : Nat)
    (key : NetLoc)
    (entry : Option NetLocList) :
    World :=
  { w with
    pools := Function.update w.pools p
      { w.pools p with
        clients := Function.update (w.pools p).clients key entry } }

/-- Replace one user agent. -/
def setAgent (w : World) (a : Nat) (agent : UserAgent) : World :=
  { w with agents := Function.update w.agents a agent }

/-- `Request::netloc` -/
def netloc (w : World) (r : Nat) : NetLoc :=
  w.config.netloc (w.requests r).toRequestFields

/-- An exception reaches the caller. -/
def throwing (w : World) (exception : Exception) : Straight :=
  .raise (w.emit (.threw exception))

/-! ## The stream -/

/-- `Tcp::weak` -/
def weak (w : World) (c : Nat) (value : Bool) : World :=
  w.setTcp c { (w.clients c).tcp with weak := value }

/-- `Tcp::reset` -/
def reset (w : World) (c : Nat) : World :=
  let tcp := (w.clients c).tcp
  w.setTcp c { tls := tcp.tls, socks := tcp.socks, weak := tcp.weak }

/-- `write`; what is written to a closed stream reaches no connection. -/
def write (w : World) (c : Nat) (piece : Piece) : World :=
  let tcp := (w.clients c).tcp
  let w := w.setTcp c { tcp with writeQueue := tcp.writeQueue + 1 }
  match tcp.connection with
  | none => w
  | some connection => w.emit (.wrote c connection piece)

/-- `connect(_netloc.host, _netloc.port, conn_timeout, request->tcp_hints)` -/
def connect (w : World) (c : Nat) (netloc : NetLoc) (timeout : Nat) : World :=
  let tcp := (w.clients c).tcp
  ({ w.setTcp c
      { tcp with
        status := .connecting
        connection := some w.nextConnection
        eof := false } with
    nextConnection := w.nextConnection + 1 }).emit
    (.opened c w.nextConnection netloc timeout tcp.tls tcp.socks)

/-! ## Starting a request -/

/-- `_verify_ssl_context()`; the instance stays when it cannot be set up. -/
def verifySslContext (w : World) : Straight :=
  if w.verifyContext then
    .ok w
  else
    let w := { w with verifyContext := true }
    if w.config.setsVerifyPaths then
      .ok w
    else
      w.throwing
        (.httpError "can not set ssl certificate default verify paths")

/-- The part of `Client::request` that sets up TLS. -/
def setUpTls (w : World) (c : Nat) (fields : RequestFields) : Straight :=
  (if w.config.verifies fields then w.verifySslContext else .ok w).andThen
    fun w =>
      .ok (w.setTcp c
        { (w.clients c).tcp with tls := w.config.tlsSetup fields })

/-- The part of `Client::request` that looks at the proxy and connects. -/
def connectThrough
    (w : World)
    (c : Nat)
    (netloc : NetLoc)
    (fields : RequestFields) :
    Straight :=
  let connecting (w : World) : Straight :=
    .ok
      ((w.setClient c { w.clients c with netloc := netloc }).connect c netloc
        (if fields.connectTimeout = 0 then
          fields.timeout
        else
          fields.connectTimeout))
  match fields.proxy with
  | none => connecting w
  | some proxy =>
      let scheme := (w.config.proxyUri proxy).scheme
      if scheme = "socks5" then
        connecting
          (w.setTcp c { (w.clients c).tcp with socks := some proxy })
      else if scheme = "http" then
        connecting w
      else
        w.throwing
          (.httpError "client supports only socks5 protocol for proxy")

/-- The part of `Client::request` that opens a connection. -/
def openConnection (w : World) (c r : Nat) : Straight :=
  let fields := (w.requests r).toRequestFields
  let netloc := w.netloc r
  let w := if (w.clients c).tcp.status = .connected then w.reset c else w
  -- `filters().clear()`
  let w := w.setTcp c { (w.clients c).tcp with tls := none, socks := none }
  (w.setUpTls c fields).andThen fun w => w.connectThrough c netloc fields

/-- The items of a form from the current one on, as far as they can be sent. -/
def sendItems (w : World) (c r : Nat) : List FormItem → Straight
  | [] => .ok w
  | item :: rest =>
      let index := (w.clients c).formField
      let passed (w : World) : World :=
        w.setClient c { w.clients c with formField := index + 1 }
      match item with
      | .field name content =>
          (passed (w.write c (.formField r name content))).sendItems c r rest
      | .embeddedFile name content mimeType filename =>
          (passed
            ((w.write c (.formFile r name filename mimeType)).write c
              (.formData r content.toList))).sendItems c r rest
      | .file name mimeType filename =>
          let request := w.requests r
          if (request.streaming index.toNat).given then
            .fault .nullInput
          else
            .ok
              ((w.setRequest r
                { request with
                  streaming := Function.update request.streaming index.toNat
                    { given := w.config.takesInput
                      streamer := some c
                      running := true }
                }).write c (.formFile r name filename mimeType))

/-- `Client::send_form` -/
def sendForm (w : World) (c : Nat) : Straight :=
  match (w.clients c).request with
  | none => .fault .sendFormIdle
  | some r =>
      (w.sendItems c r
        ((w.requests r).form.drop (w.clients c).formField.toNat)).andThen
        fun w =>
          let request := w.requests r
          if (w.clients c).formField = request.form.length then
            let w := w.setClient c { w.clients c with formField := -1 }
            let w := w.write c (.formFinish r)
            .ok (w.setRequest r
              { w.requests r with transferCompleted := true })
          else
            .ok w

/-- The part of `Client::request` after the connection is there. -/
def startRequest (w : World) (c r : Nat) : Straight :=
  let w :=
    w.setRequest r
      ((w.requests r).ensureTimerActive (w.clients c).loop w.now)
  let w := w.weak c false
  let w :=
    w.setClient c { w.clients c with request := some r, parsing := some r }
  let w := w.emit (.started c r)
  let request := w.requests r
  let w := w.write c (.head r request.toRequestFields)
  if request.formStreaming then
    (w.setClient c { w.clients c with formField := 0 }).sendForm c
  else if !request.chunked || request.body.length != 0 then
    .ok (w.setRequest r { w.requests r with transferCompleted := true })
  else
    .ok w

/-- A request cannot go on the connection that a client has. -/
def needsConnection (w : World) (c r : Nat) : Bool :=
  (w.clients c).tcp.status ≠ .connected ||
    (w.clients c).netloc ≠ w.netloc r ||
      !(w.requests r).keepAlive

/-- `Client::request` -/
def clientRequest (w : World) (c r : Nat) : Straight :=
  if (w.clients c).request.isSome then
    w.throwing (.httpError "client supports only one request at a time")
  else if (w.requests r).client.isSome then
    w.throwing (.httpError "request is already in progress")
  else
    match (w.requests r).check with
    | some message => w.throwing (.httpError message)
    | none =>
        let request := w.requests r
        let w :=
          w.setRequest r
            { request with
              client := some c
              uri := request.uri.map Uri.withScheme }
        if w.needsConnection c r then
          (w.openConnection c r).andThen fun w => w.startRequest c r
        else
          w.startRequest c r

/-! ## The pool -/

/-- `new_client` of a pool, or a client of the application. -/
def newClient (w : World) (loop : Nat) (pool : Option Nat) : World :=
  { w.setClient w.nextClient { loop := loop, pool := pool } with
    nextClient := w.nextClient + 1 }

/-- `free.begin()` -/
def firstFree (w : World) (entry : NetLocList) : Option Nat :=
  entry.free.argmin w.config.address

/-- `Pool::request` for a location where a new client may be made. -/
def poolStart
    (w : World)
    (p r : Nat)
    (key : NetLoc)
    (entry : NetLocList) :
    Straight :=
  let c := w.nextClient
  let w := w.newClient (w.pools p).loop (some p)
  (w.setEntry p key (some { entry with busy := entry.busy.insert c }))
    |>.clientRequest c r

/-- `queue.emplace_back(req)` -/
def enqueue
    (w : World)
    (p r : Nat)
    (key : NetLoc)
    (entry : NetLocList) :
    World :=
  let place : Place := { ticket := entry.nextTicket, req := r }
  let w :=
    w.setEntry p key
      (some
        { entry with
          queue := entry.queue ++ [place]
          generation := entry.generation + 1
          nextTicket := entry.nextTicket + 1 })
  (w.setRequest r
    ((w.requests r).ensureTimerActive (w.pools p).loop w.now)).emit
    (.queued p r)

/-- `Pool::request` -/
def poolRequest (w : World) (p r : Nat) : Straight :=
  match (w.requests r).check with
  | some message => w.throwing (.httpError message)
  | none =>
      let w := w.setRequest r { w.requests r with pool := some p }
      let key := w.netloc r
      match (w.pools p).clients key with
      | none => w.poolStart p r key {}
      | some entry =>
          match w.firstFree entry with
          | some c =>
              (w.setEntry p key
                (some
                  { entry with
                    free := entry.free.erase c
                    busy := entry.busy.insert c })).clientRequest c r
          | none =>
              if entry.busy.length < (w.pools p).maxConnections then
                w.poolStart p r key entry
              else
                .ok (w.enqueue p r key entry)

/-- `Pool::putback` -/
def putback (w : World) (p c : Nat) : Straight :=
  let key := (w.clients c).netloc
  match (w.pools p).clients key with
  | none => .fault .putbackNoEntry
  | some entry =>
      match entry.queue with
      | place :: rest =>
          (w.setEntry p key (some { entry with queue := rest })).clientRequest c
            place.req
      | [] =>
          if c ∈ entry.busy then
            .ok (w.setEntry p key
              (some
                { entry with
                  free := entry.free.insert c
                  busy := entry.busy.erase c }))
          else
            .fault .putbackNotBusy

/-- `Request::finish_and_notify` -/
def finishAndNotify
    (w : World)
    (r : Nat)
    (response : Option Response)
    (error : Option ErrorCode) :
    Step :=
  let response := response.getD {}
  .next ((w.setRequest r (w.requests r).finished).emit (.finished r))
    [.fire (.partialEvent r response error),
      .fire (.responseEvent r response error)]

/-- `Pool::cancel_request`, up to the return of `finish_and_notify`. -/
def cancelRequest
    (w : World)
    (p r : Nat)
    (error : Option ErrorCode) :
    Step :=
  let key := w.netloc r
  match (w.pools p).clients key with
  | none => .fault .cancelNoEntry
  | some entry =>
      match entry.queue.find? fun place => place.req == r with
      | none => .fault .cancelNotFound
      | some place =>
          andFrames (w.finishAndNotify r none error)
            [.cancelReturn p key place.ticket entry.generation]

/-- `Pool::cancel_request` after `finish_and_notify`: `q.erase(it)`. -/
def cancelReturn
    (w : World)
    (p : Nat)
    (key : NetLoc)
    (ticket generation : Nat) :
    Step :=
  match (w.pools p).clients key with
  | none => .fault .invalidIterator
  | some entry =>
      let index := entry.queue.findIdx fun place => place.ticket == ticket
      if entry.generation = generation ∧ index < entry.queue.length then
        -- an element in the middle of a `deque` leaves no iterator valid
        let inMiddle := 0 < index ∧ index + 1 < entry.queue.length
        .next
          (w.setEntry p key
            (some
              { entry with
                queue := entry.queue.eraseIdx index
                generation := entry.generation + if inMiddle then 1 else 0 }))
          []
      else
        .fault .invalidIterator

/-- `Pool::check_inactivity`, for one network location. -/
def sweep
    (w : World)
    (removeTime : Nat)
    (entry : NetLocList) :
    Option NetLocList :=
  let free :=
    entry.free.filter fun c =>
      !decide ((w.clients c).lastActivityTime < removeTime)
  if free = [] ∧ entry.busy = [] then none else some { entry with free := free }

/-- `Pool::check_inactivity`, in the arithmetic of `uint64_t`. -/
def checkInactivity (w : World) (p : Nat) : World :=
  let pool := w.pools p
  let removeTime := (w.now pool.loop + 2 ^ 64 - pool.idleTimeout) % 2 ^ 64
  { w with
    pools := Function.update w.pools p
      { pool with
        clients := fun key => (pool.clients key).bind (w.sweep removeTime) } }

/-! ## Finishing a request -/

/-- `req->form[_form_field]->stop(); _form_field = -1;` -/
def stopForm (w : World) (c r : Nat) : Straight :=
  let index := (w.clients c).formField
  if index < 0 then
    .ok w
  else
    let request := w.requests r
    let stopped (w : World) : World :=
      w.setClient c { w.clients c with formField := -1 }
    match request.form[index.toNat]? with
    | none => .fault .formIndex
    | some (.file _ _ _) =>
        let streaming := request.streaming index.toNat
        if streaming.streamer.isNone then
          .fault .nullStreamer
        else
          .ok (stopped (w.setRequest r
            { request with
              streaming := Function.update request.streaming index.toNat
                { streaming with streamer := none, running := false } }))
    | some _ => .ok (stopped w)

/-- `auto req = std::move(_request); auto res = std::move(_response);` -/
def detached (w : World) (c : Nat) : World :=
  w.setClient c { w.clients c with request := none, response := none }

/-- `_last_activity_time = loop()->now();` -/
def rested (w : World) (c : Nat) : World :=
  w.setClient c
    { w.clients c with lastActivityTime := w.now (w.clients c).loop }

/-- `finish_request` between the moves and `finish_and_notify`. -/
def releaseClient
    (w : World)
    (c r : Nat)
    (response : Option Response)
    (error : Option ErrorCode) :
    Straight :=
  let keep :=
    match response with
    | none => false
    | some response => response.keepAlive && (w.requests r).keepAlive
  let w := if error.isSome || !keep then w.reset c else w.weak c true
  (w.stopForm c r).andThen fun w =>
    let w := w.rested c
    match (w.clients c).pool with
    | none => .ok w
    | some p => w.putback p c

/-- The error with which `finish_request` ends a request. -/
def finishError
    (w : World)
    (r : Nat)
    (error : Option ErrorCode) :
    Option ErrorCode :=
  error.or
    (if (w.requests r).transferCompleted then
      none
    else
      some (.http .transferAborted))

/-- `Client::finish_request` -/
def finishRequest
    (w : World)
    (c : Nat)
    (error : Option ErrorCode) :
    Step :=
  match (w.clients c).request with
  | none => .fault .nullRequest
  | some r =>
      let response := (w.clients c).response
      let error := w.finishError r error
      if error.isNone && response.isNone then
        .fault .nullResponse
      else
        ((w.detached c).releaseClient c r response error).before fun w =>
          w.finishAndNotify r response error

/-- `Client::cancel` -/
def cancel
    (w : World)
    (c : Nat)
    (error : Option ErrorCode) :
    Step :=
  let client := w.clients c
  if client.request.isNone then
    .next w []
  else
    (w.setClient c
      { client with
        parsing := none
        redirectCanceled := client.redirectCanceled || client.inRedirect })
      |>.finishRequest c error

/-- `Client::timed_out` -/
def timedOut (w : World) (c : Nat) : Step :=
  w.cancel c
    (some
      (if (w.clients c).tcp.status = .connecting then
        .nested .connectError .timedOut
      else
        .timedOut))

/-! ## Receiving a response -/

/-- `Client::analyze_request`, up to the return of a callback. -/
def analyzeRequest (w : World) (c : Nat) : Step :=
  let client := w.clients c
  match client.request, client.response with
  | none, _ => .fault .nullRequest
  | _, none => .fault .nullResponse
  | some r, some response =>
      let request := w.requests r
      if response.code = 100 then
        .next w [.fire (.continueEvent r), .continued c]
      else if request.followRedirect && isRedirect response.code then
        if request.redirectionLimit = 0 then
          w.cancel c (some (.http .unexpectedRedirect))
        else
          -- `_redirection_counter` is a `uint16_t`
          let counter := (request.redirectionCounter + 1) % 2 ^ 16
          let request := { request with redirectionCounter := counter }
          let w := w.setRequest r request
          if request.redirectionLimit < counter then
            w.cancel c (some (.http .redirectionLimit))
          else
            match response.location with
            | none => w.cancel c (some (.http .noRedirectUri))
            | some location =>
                let w := w.setRequest r (request.redirectedTo location)
                .next (w.setClient c { client with inRedirect := true })
                  [.fire (.redirectEvent c r response request.redirectContext),
                    .redirected c]
      else
        w.finishRequest c none

/-- `netloc.host != _netloc.host || netloc.port != _netloc.port` -/
def Elsewhere (w : World) (c r : Nat) : Prop :=
  (w.netloc r).host ≠ (w.clients c).netloc.host ∨
    (w.netloc r).port ≠ (w.clients c).netloc.port

instance (w : World) (c r : Nat) : Decidable (w.Elsewhere c r) :=
  inferInstanceAs (Decidable (_ ∨ _))

/-- A redirected request has left its client. -/
def hopping (w : World) (c r : Nat) (response : Response) : World :=
  let w := w.detached c
  let w := w.setRequest r { w.requests r with client := none }
  let w := if response.keepAlive then w else w.reset c
  w.setRequest r (w.requests r).cleanupAfterRedirect

/-- `analyze_request` sends the redirected request on its way. -/
def followRedirect
    (w : World)
    (c r : Nat)
    (response : Response) :
    Straight :=
  let next := w.hopping c r response
  match (w.clients c).pool with
  | none => next.clientRequest c r
  | some p =>
      if w.Elsewhere c r then
        ((next.rested c).putback p c).andThen fun w =>
          (w.weak c true).poolRequest p r
      else
        next.clientRequest c r

/-- `analyze_request` after `redirect_event`. -/
def redirected (w : World) (c : Nat) : Step :=
  let client := { w.clients c with inRedirect := false }
  if client.redirectCanceled then
    .next (w.setClient c { client with redirectCanceled := false }) []
  else
    let w := w.setClient c client
    match client.request, client.response with
    | none, _ => .fault .nullRequest
    | _, none => .fault .nullResponse
    | some r, some response =>
        let w :=
          if response.code = 303 then
            w.setRequest r { w.requests r with method := .get, body := [] }
          else
            w
        (w.followRedirect c r response).before fun w => .next w []

/-- The `catch` block of `analyze_request`. -/
def redirectCatch (w : World) (c : Nat) : Step :=
  let w :=
    w.setClient c
      { w.clients c with inRedirect := false, redirectCanceled := false }
  andFrames (w.cancel c (some .operationCanceled)) [.rethrow]

/-- `_parser.parse_shift(buf)`, and the assignments after it. -/
def parseShift
    (w : World)
    (c buffer context : Nat)
    (result : Parsed) :
    World :=
  (w.setClient c
    { w.clients c with
      response := some result.response
      parsing := if result.keepsContext then some context else none }).emit
    (.parsed c buffer context)

/-- `on_read` reports a part of the body. -/
def receivePart (w : World) (c : Nat) (response : Response) : Step :=
  if response.code = 100 then
    .next w []
  else
    match (w.clients c).request with
    | none => .fault .nullRequest
    | some r =>
        if (w.requests r).followRedirect && isRedirect response.code then
          .next w []
        else
          .next w [.fire (.partialEvent r response none)]

/-- One iteration of the loop of `on_read`. -/
def onReadLoop (w : World) (c buffer : Nat) : List Parsed → Step
  | [] => .next w []
  | result :: rest =>
      match (w.clients c).parsing with
      | none => .next (w.reset c) []
      | some context =>
          let w := w.parseShift c buffer context result
          match result with
          | .error error _ => w.cancel c (some error)
          | .headers => .next w []
          -- a buffer is consumed to its end unless the response is finished
          | .body _ => w.receivePart c result.response
          | .done _ =>
              andFrames (w.analyzeRequest c) [.onRead c buffer rest]

/-- `Client::on_eof` -/
def onEof
    (w : World)
    (c : Nat)
    (error : Option ErrorCode)
    (response : Response) :
    Step :=
  let client := w.clients c
  match client.request, client.parsing with
  | none, _ => .next (w.reset c) []
  | some _, none => .fault .nullResponse
  | some _, some _ =>
      let w :=
        w.setClient c
          { client with
            response := some { response with isDone := true }
            parsing := none }
      match error with
      | some error => w.cancel c (some error)
      | none => w.analyzeRequest c

/-- `Client::form_file_complete` -/
def formFileComplete
    (w : World)
    (c : Nat)
    (error : Option ErrorCode) :
    Step :=
  match error with
  | some error => w.finishRequest c (some error)
  | none =>
      let client := w.clients c
      ((w.setClient c { client with formField := client.formField + 1 })
        |>.sendForm c).before fun w => .next w []

/-! ## The user agent -/

/-- `UserAgent::inject` -/
def inject
    (w : World)
    (a r : Nat)
    (contextUri : Uri)
    (topLevel : Bool)
    (time : Nat) :
    World :=
  let agent := w.agents a
  let request := w.requests r
  let cookies :=
    w.config.populate agent.jar request.cookies request.target contextUri
      topLevel time
  let headers :=
    match agent.identity with
    | none => request.headers
    | some identity =>
        if hasHeader request.headers "User-Agent" then
          request.headers
        else
          request.headers ++ [("User-Agent", identity)]
  (w.setRequest r
    { request with
      cookies := cookies
      headers := headers
      sslCtx := request.sslCtx.or agent.sslCtx
      proxy := request.proxy.or agent.proxy }).emit
    (.populated a r request.target cookies)

/-- `ua->loop()->now()` -/
def agentNow (w : World) (a : Nat) : Nat :=
  w.now (w.pools (w.agents a).pool).loop

/-- `jar->collect` -/
def collect (w : World) (a : Nat) (cookies : Cookies) (uri : Uri) : World :=
  let agent := w.agents a
  (w.setAgent a
    { agent with
      jar := agent.jar ++
        [{ cookies := cookies, uri := uri, time := w.agentNow a }] }).emit
    (.collected a cookies uri)

/-- `UserAgent::request` -/
def agentRequest
    (w : World)
    (a r : Nat)
    (contextUri : Uri)
    (topLevel : Bool) :
    Straight :=
  let request := w.requests r
  let listener := Listener.agent a contextUri topLevel
  let w :=
    w.setRequest r
      { request with
        responseListeners := request.responseListeners ++ [listener]
        redirectListeners := request.redirectListeners ++ [listener] }
  if request.uri.isNone then
    .fault .nullUri
  else
    (w.inject a r contextUri topLevel (w.agentNow a)).poolRequest
      (w.agents a).pool r

/-- The listener of `response_event` that `UserAgent::request` adds. -/
def agentResponse
    (w : World)
    (a r : Nat)
    (response : Response)
    (error : Option ErrorCode) :
    World :=
  if error.isSome then
    w
  else
    w.collect a response.cookies (w.requests r).target

/--
The listener of `redirect_event` that `UserAgent::request` adds.  Its arguments
are references to members of the client, which an earlier listener may clear.
-/
def agentRedirect
    (w : World)
    (a : Nat)
    (contextUri : Uri)
    (topLevel : Bool)
    (c : Nat)
    (context : RedirectContext) :
    Step :=
  match (w.clients c).response, (w.clients c).request with
  | none, _ => .fault .nullResponse
  | some _, none => .fault .nullRequest
  | some response, some r =>
      .next
        ((w.collect a response.cookies context.uri).inject a r contextUri
          topLevel (w.agentNow a))
        []

/-! ## The machine -/

/-- What a listener of an event executes. -/
def listenerFrame (callback : Callback) : Listener → Frame
  | .application => .callback callback
  | .agent a contextUri topLevel =>
      match callback with
      | .responseEvent r response error => .agentResponse a r response error
      | .redirectEvent c _ _ context =>
          .agentRedirect a contextUri topLevel c context
      | _ => .callback callback

/-- The listeners of an event. -/
def listeners (w : World) : Callback → List Listener
  | .responseEvent r _ _ => (w.requests r).responseListeners
  | .redirectEvent _ r _ _ => (w.requests r).redirectListeners
  | _ => [.application]

/-- The code of every frame that is not a callback. -/
def code : Frame → World → Step
  | .callback _, w => .next w []
  | .fire callback, w =>
      .next (w.emit (.fired callback))
        ((w.listeners callback).map (listenerFrame callback))
  | .agentResponse a r response error, w =>
      .next (w.agentResponse a r response error) []
  | .agentRedirect a contextUri topLevel c context, w =>
      w.agentRedirect a contextUri topLevel c context
  | .onRead c buffer buf, w => w.onReadLoop c buffer buf
  | .continued c, w =>
      .next (w.setClient c { w.clients c with response := none }) []
  | .redirected c, w => w.redirected c
  | .redirectCatch c, w => w.redirectCatch c
  | .rethrow, w => .raise w
  | .cancelReturn p key ticket generation, w =>
      w.cancelReturn p key ticket generation

/-- The exceptions that the code catches: those of `redirect_event`. -/
def handler : Frame → Option (List Frame)
  | .redirected c => some [.redirectCatch c]
  | _ => none

/-- Application code is running in the frame. -/
def isCallback : Frame → Bool
  | .callback _ => true
  | _ => false

/-- A submission by the application that has been accepted. -/
def acceptedOn (pool : Option Nat) (loop r : Nat) (w : World) : Step :=
  .next
    (w.emit (.accepted r pool loop (w.now loop) (w.requests r).timeout)) []

/-- `Request::cancel` -/
def requestCancel (w : World) (r : Nat) (error : Option ErrorCode) : Step :=
  let request := w.requests r
  match request.client, request.pool with
  | some c, _ => w.cancel c error
  | none, some p => w.cancelRequest p r error
  | none, none => .next w []

/-- `Request::on_timer` -/
def onTimer (w : World) (r : Nat) : Step :=
  let request := w.requests r
  match request.client, request.pool with
  | some c, _ => w.timedOut c
  | none, some p => w.cancelRequest p r (some .timedOut)
  | none, none => .next w []

/-- The chunk functions of `Request`, with the checks that they share. -/
def requestSend (w : World) (r : Nat) (send : Nat → Step) : Step :=
  let request := w.requests r
  if request.transferCompleted then
    (w.throwing (.httpError
      "can't send chunk: request has already been transfered")).before
      fun w => .next w []
  else
    match request.client with
    | none =>
        (w.throwing (.httpError
          "can't send chunk: request is not active")).before
          fun w => .next w []
    | some c =>
        if (w.clients c).request = some r then send c else .fault .sendOther

/-- `Request::send_chunk` -/
def sendChunk (w : World) (r : Nat) (data : Data) : Step :=
  w.requestSend r fun c =>
    if data = [] then .next w [] else .next (w.write c (.chunk r data)) []

/-- `Request::send_final_chunk` -/
def sendFinalChunk (w : World) (r : Nat) (data : Data) : Step :=
  w.requestSend r fun c =>
    .next
      ((w.setRequest r
        { w.requests r with transferCompleted := true }).write c
        (.finalChunk r data))
      []

/-- The timer of a request becomes inactive and tells its listener. -/
def fireTimer (w : World) (r : Nat) (timer : Timer) : Step :=
  let w :=
    w.setRequest r
      { w.requests r with timer := some { timer with deadline := none } }
  if timer.listened then w.onTimer r else .next w []

/-- What the application may write into a request. -/
def mayEdit (request : Request) (fields : RequestFields) : Bool :=
  -- a request in flight needs its uri
  (fields.uri.isSome || (request.client.isNone && request.pool.isNone)) &&
    -- the state of the items belongs to the items
    decide (fields.form = request.form ∨ request.client = none)

/-- The request with one more listener of each event. -/
def listened (request : Request) : Request :=
  { request with
    responseListeners := request.responseListeners ++ [.application]
    redirectListeners := request.redirectListeners ++ [.application] }

/-- The request with other public members; new items have not been started. -/
def edited (request : Request) (fields : RequestFields) : Request :=
  { request with
    toRequestFields := fields
    streaming :=
      if fields.form = request.form then request.streaming else fun _ => {} }

/--
The code of the entry points.  The application may call from a callback or from
outside; the event loop acts only when nothing runs.
-/
def accept : Input → Option Frame → World → Option Step
  | .edit r fields, _, w =>
      if mayEdit (w.requests r) fields then
        some (.next (w.setRequest r (edited (w.requests r) fields)) [])
      else
        none
  | .listen r, none, w => some (.next (w.setRequest r (listened (w.requests r))) [])
  | .newClient loop, _, w => some (.next (w.newClient loop none) [])
  | .clientRequest c r, _, w =>
      if c < w.nextClient then
        some ((w.clientRequest c r).before
          (acceptedOn none (w.clients c).loop r))
      else
        none
  | .poolRequest p r, _, w =>
      some ((w.poolRequest p r).before
        (acceptedOn (some p) (w.pools p).loop r))
  | .agentRequest a r contextUri topLevel, _, w =>
      some ((w.agentRequest a r contextUri topLevel).before
        (acceptedOn (some (w.agents a).pool)
          (w.pools (w.agents a).pool).loop r))
  | .cancel r error, _, w => some (w.requestCancel r error)
  | .clientCancel c error, _, w => some (w.cancel c error)
  | .sendChunk r data, _, w => some (w.sendChunk r data)
  | .sendFinalChunk r data, _, w => some (w.sendFinalChunk r data)
  | .maxConnections p value, _, w =>
      some (.next
        { w with
          pools := Function.update w.pools p
            { w.pools p with maxConnections := value } } [])
  | .advance loop milliseconds, none, w =>
      some (.next
        { w with
          now := Function.update w.now loop (w.now loop + milliseconds) } [])
  | .onConnect c error, none, w =>
      let tcp := (w.clients c).tcp
      if tcp.status = .connecting then
        match error with
        | none => some (.next (w.setTcp c { tcp with status := .connected }) [])
        | some error =>
            some ((w.setTcp c { tcp with status := .closed, connection := none })
              |>.cancel c (some (.nested .connectError error)))
      else
        none
  | .onWrite c error, none, w =>
      let tcp := (w.clients c).tcp
      if 0 < tcp.writeQueue then
        let w := w.setTcp c { tcp with writeQueue := tcp.writeQueue - 1 }
        match error with
        | none => some (.next w [])
        | some error => some (w.cancel c (some error))
      else
        none
  | .onRead c buf, none, w =>
      let tcp := (w.clients c).tcp
      match tcp.status, tcp.eof, tcp.connection with
      | .connected, false, some connection =>
          some (.next
            ({ w with nextBuffer := w.nextBuffer + 1 }.emit
              (.delivered c connection w.nextBuffer))
            [.onRead c w.nextBuffer buf])
      | _, _, _ => none
  | .onReadError c error, none, w =>
      if (w.clients c).tcp.status = .connected then
        some (w.cancel c (some error))
      else
        none
  | .onEof c error response, none, w =>
      let tcp := (w.clients c).tcp
      match tcp.status, tcp.eof, tcp.connection with
      | .connected, false, some connection =>
          some (((w.setTcp c
            { tcp with
              eof := true
              status := if w.config.eofDisconnects then .ended else .connected
            }).emit (.ended c connection)).onEof c error response)
      | _, _, _ => none
  | .onTimer r, none, w =>
      match (w.requests r).timer with
      | none => none
      | some timer =>
          match timer.deadline with
          | none => none
          | some deadline =>
              if deadline ≤ w.now timer.loop then
                some (w.fireTimer r timer)
              else
                none
  | .streamData r item data, none, w =>
      let streaming := (w.requests r).streaming item
      match streaming.running, streaming.streamer with
      | true, some c => some (.next (w.write c (.formData r data)) [])
      | _, _ => none
  | .streamFinish r item error, none, w =>
      let request := w.requests r
      let streaming := request.streaming item
      match streaming.running, streaming.streamer with
      | true, some c =>
          some ((w.setRequest r
            { request with
              streaming := Function.update request.streaming item
                { streaming with running := false } }).formFileComplete c error)
      | _, _ => none
  | .checkInactivity p, none, w =>
      if (w.pools p).idleTimeout = 0 then
        none
      else
        some (.next (w.checkInactivity p) [])
  | _, some _, _ => none

/-- The clients, pools and user agents as a call machine. -/
def machine : CallMachine.Machine World Frame Input Fault where
  code := code
  isCallback := isCallback
  mayThrow := fun _ => true
  handler := handler
  accept := accept

/-- A world with its call stack. -/
abbrev Config := CallMachine.Config World Frame Fault

/-- One choice of the application or the event loop. -/
abbrev Label := CallMachine.Label Input

/-- Pools and user agents that have not been used; there is no client yet. -/
structure Fresh (w : World) : Prop where
  requests : ∀ r, w.requests r = {}
  clients : ∀ c, w.clients c = {}
  pools : ∀ p key, (w.pools p).clients key = none
  agents : ∀ a, (w.agents a).jar = []
  nextClient : w.nextClient = 0
  trace : w.trace = []

/-- A world in which nothing has happened. -/
def initial (config : WorldConfig) : World where
  config := config

/-- A world with nothing running. -/
def start (w : World) : Config where
  state := w
  stack := []

/-- Execute a list of choices. -/
def run? (w : World) (labels : List Label) : Option Config :=
  machine.run? (start w) labels

end World

end UniEventHttp.ClientSide
