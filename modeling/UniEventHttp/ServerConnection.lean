import UniEventHttp.CallMachine
import UniEventHttp.ServerMessage

namespace UniEventHttp

/-!
# The server connection

`ServerConnection` with its parse loop, its pipeline of requests and the four
ways in which a request leaves it.  Every function of the source that calls
application code is cut at these calls: the part after a callback is a frame of
its own, and the frames together form the code of a call machine.

The stream, the timer and the parser are code of other libraries.  A read buffer
is represented by what `parse_shift` reports while `on_read` loops over it; the
stream delivers no data after `read_ignore`, and none after an end of file or a
read error.  Callbacks return normally.  An `assert` is checked, as in a debug
build, and calling `front()` on an empty deque or a method of a null timer ends
the run.
-/

/-- What one `parse_shift` call reports about the request it works on. -/
inductive Parsed where
  /-- The headers are not finished. -/
  | headers
  /-- The headers are finished and the body is not. -/
  | body (head : RequestHead)
  /-- The request is finished; the rest of the buffer is left. -/
  | done (head : RequestHead)
  | error (error : ErrorCode)
  deriving Repr, DecidableEq

namespace Parsed

/-- `result.state >= State::done` -/
def isDone : Parsed → Bool
  | .headers => false
  | .body _ => false
  | .done _ => true
  | .error _ => true

/-- The headers, in a report that comes after them. -/
def head? : Parsed → Option RequestHead
  | .headers => none
  | .body head => some head
  | .done head => some head
  | .error _ => none

end Parsed

/-- The callbacks that a connection fires. -/
inductive Callback where
  | routeEvent (req : Nat)
  | partialEvent (req : Nat) (error : Option ErrorCode)
  | receiveEvent (req : Nat)
  | requestEvent (req : Nat)
  | errorEvent (req : Nat) (error : Option ErrorCode)
  | dropEvent (req : Nat) (error : Option ErrorCode)
  | finishEvent (req : Nat)
  /-- `Server::stop_event`, which `Server::remove` may fire. -/
  | stopEvent
  deriving Repr, DecidableEq

/-- What is observed of a connection, in order. -/
inductive Event where
  /-- The request object is created. -/
  | newRequest (req : Nat)
  /-- `requests.emplace_back` -/
  | appended (req : Nat)
  | fired (callback : Callback)
  /-- `stream->write` -/
  | wrote (piece : Piece)
  /-- A response is accepted by `respond`. -/
  | responded (req : Nat) (response : ServerResponse)
  /-- A chunk is accepted by `send_chunk`. -/
  | gaveChunk (req : Nat) (data : Data)
  /-- A chunk is accepted by `send_final_chunk`. -/
  | gaveFinalChunk (req : Nat) (data : Data)
  /-- `cleanup_request` takes the request out of the deque. -/
  | cleanedUp (req : Nat)
  /-- `drop_requests` takes the request out of the deque. -/
  | dropped (req : Nat) (error : Option ErrorCode)
  | readIgnored
  /-- `do_close` -/
  | closed (soft : Bool)
  /-- `upgrade` hands the stream over. -/
  | upgraded (req : Nat)
  /-- `server->remove(this)` -/
  | removed
  | threw (exception : Exception)
  deriving Repr, DecidableEq

/-- What the connection knows of its stream. -/
structure Stream where
  /-- The connection is the event listener. -/
  listener : Bool := true
  /-- `read_ignore` has been called. -/
  ignoring : Bool := false
  /-- An end of file or a read error has been reported. -/
  ended : Bool := false
  /-- The number of unfinished writes. -/
  writeQueue : Nat := 0
  /-- `shutdown` has been called. -/
  shutdownRequested : Bool := false
  deriving Repr, DecidableEq

/-- `ServerConnection::Config`, and what the server and the protocol library provide. -/
structure ConnectionConfig where
  idleTimeout : Nat := 300000
  maxKeepaliveRequests : Nat := 0
  /-- `server->date_header_now()` -/
  dateHeaderNow : String := ""
  /-- `full_message()`: a status code with its reason phrase. -/
  fullMessage : Nat → String := fun _ => ""

/-- `ServerConnection` -/
structure ServerConnection where
  config : ConnectionConfig
  stream : Stream := {}
  /-- The request that the parser is working on. -/
  parsing : Option Nat := none
  /-- `requests` -/
  requests : List Nat := []
  /-- All request objects created so far. -/
  store : Nat → ServerRequest := fun _ => {}
  /-- The name of the next request object. -/
  nextId : Nat := 0
  /-- `requests_processed` -/
  requestsProcessed : Nat := 0
  /-- `idle_timer`: null, or a timer that is active or not. -/
  idleTimer : Option Bool := none
  closing : Bool := false
  stopping : Bool := false
  /-- What has been observed so far. -/
  trace : List Event := []

/-- Where `drop_requests` returns to. -/
inductive DropReturn where
  /-- `do_close` -/
  | doClose (soft : Bool)
  /-- `write_next_response`, which holds the current request and its chunks. -/
  | writeNextResponse (req : Nat) (tmpChunks : List Data)
  deriving Repr, DecidableEq

/-- The code that is to be executed when the frames above have returned. -/
inductive Frame where
  /-- Application code is running. -/
  | callback (callback : Callback)
  /-- An event is dispatched. -/
  | fire (callback : Callback)
  /-- `while (buf)` of `on_read`. -/
  | onRead (buf : List Parsed)
  /-- The loop body of `on_read` after `route_event`. -/
  | routed (req : Nat) (done : Bool) (buf : List Parsed)
  /-- The loop body of `on_read` after the receiving callbacks. -/
  | received (req : Nat) (done : Bool) (buf : List Parsed)
  /-- `request_error` -/
  | requestError (req : Nat) (error : ErrorCode)
  /-- `request_error` after its callback. -/
  | requestErrorReturn (req : Nat)
  /-- `stream->read_ignore(); break;` of `on_read`. -/
  | readIgnore
  /-- `write_next_response` -/
  | writeNextResponse
  /-- `finish_request` -/
  | finishRequest
  /-- `finish_request` after `cleanup_request`. -/
  | finishReturn
  /-- `while (requests.size())` of `drop_requests`. -/
  | dropRequests (error : Option ErrorCode) (returns : DropReturn)
  /-- The loop body of `drop_requests` after `cleanup_request`. -/
  | dropNotify (req : Nat) (error : Option ErrorCode)
  /-- `upgrade` after `cleanup_request`. -/
  | upgradeReturn
  deriving Repr, DecidableEq

/-- The assertions and the undefined behaviour that may end a run. -/
inductive Fault where
  /-- `assert(req->_connection == this)` of `respond`. -/
  | respondDetached
  /-- `assert(requests.size())` of `send_continue` and the chunk functions. -/
  | sendWithoutRequests
  /-- `assert(req->_response && req->_response->_completed)` of `finish_request`. -/
  | finishIncomplete
  /-- `assert(!requests.size())` of `finish_request`. -/
  | finishWithRequests
  /-- `assert(!requests.size())` of the idle timer. -/
  | idleWithRequests
  /-- `front()` or `back()` of an empty deque. -/
  | emptyDeque
  /-- A member of a null response. -/
  | nullResponse
  /-- A method call on a null idle timer. -/
  | nullIdleTimer
  deriving Repr, DecidableEq

/-- Entry points: calls of the application and events of the loop. -/
inductive Input where
  /-- `ServerRequest::respond` -/
  | respond (req : Nat) (response : ServerResponse)
  /-- `ServerRequest::send_continue` -/
  | sendContinue (req : Nat)
  /-- `ServerResponse::send_chunk` -/
  | sendChunk (req : Nat) (data : Data)
  /-- `ServerResponse::send_final_chunk` -/
  | sendFinalChunk (req : Nat) (data : Data)
  /-- `ServerRequest::drop` -/
  | drop (req : Nat)
  /-- `ServerRequest::upgrade` -/
  | upgrade (req : Nat)
  /-- `ServerRequest::enable_partial` -/
  | enablePartial (req : Nat)
  /-- `ServerConnection::close` -/
  | close (error : Option ErrorCode)
  /-- `ServerConnection::shutdown` -/
  | shutdown (error : Option ErrorCode)
  /-- `ServerConnection::graceful_stop` -/
  | gracefulStop
  | onRead (buf : List Parsed)
  | onReadError (error : ErrorCode)
  | onEof
  | onWrite (error : Option ErrorCode)
  | onShutdown
  | onConnectionError (error : ErrorCode)
  | idleTimeout
  deriving Repr, DecidableEq

namespace ServerConnection

/-- What a piece of code of the connection ends with. -/
abbrev Step := CallMachine.Outcome ServerConnection Frame Fault

/-- Record an observation. -/
def emit (c : ServerConnection) (event : Event) : ServerConnection :=
  { c with trace := c.trace ++ [event] }

/-- Replace one request object. -/
def setRequest
    (c : ServerConnection)
    (req : Nat)
    (request : ServerRequest) :
    ServerConnection :=
  { c with store := Function.update c.store req request }

/-- Replace the response of one request. -/
def setResponse
    (c : ServerConnection)
    (req : Nat)
    (response : ServerResponse) :
    ServerConnection :=
  c.setRequest req { c.store req with response := some response }

/-- An exception reaches the caller. -/
def throwing (c : ServerConnection) (exception : Exception) : Step :=
  .raise (c.emit (.threw exception))

/-! ## The stream, the timer and the parser -/

/-- `stream->write` -/
def write (c : ServerConnection) (piece : Piece) : ServerConnection :=
  { c with
    stream := { c.stream with writeQueue := c.stream.writeQueue + 1 }
    trace := c.trace ++ [.wrote piece] }

/-- `stream->read_ignore()` -/
def readIgnore (c : ServerConnection) : ServerConnection :=
  { c with
    stream := { c.stream with ignoring := true }
    trace := c.trace ++ [.readIgnored] }

/-- The response with what `write_next_response` fills in before serialising. -/
def prepared (c : ServerConnection) (response : ServerResponse) : ServerResponse :=
  response.withDefaults c.config.dateHeaderNow

/-- `write_next_response` serialises the response and writes it. -/
def writeHead
    (c : ServerConnection)
    (req : Nat)
    (response : ServerResponse) :
    ServerConnection :=
  (c.setResponse req response).write (.head req response)

/-- `write_next_response` writes the chunks that it has moved out of the body. -/
def writeChunks
    (c : ServerConnection)
    (req : Nat) :
    List Data → ServerConnection
  | [] => c
  | data :: rest => (c.write (.chunk req data)).writeChunks req rest

/-- A response without keep-alive is being sent: no further request is read. -/
def startClosing (c : ServerConnection) (req : Nat) : ServerConnection :=
  let c := { c with closing := true }
  if (c.store req).isDone then c.readIgnore else c

/-- `if (idle_timer) idle_timer->stop();` -/
def stopIdleTimer (c : ServerConnection) : ServerConnection :=
  { c with idleTimer := c.idleTimer.map fun _ => false }

/-- `new_request`: a fresh request object, attached to the connection. -/
def newRequest (c : ServerConnection) : ServerConnection :=
  { c with
    store := Function.update c.store c.nextId { connection := true }
    nextId := c.nextId + 1
    trace := c.trace ++ [.newRequest c.nextId] }

/-- `requests.emplace_back(req)` -/
def append (c : ServerConnection) (req : Nat) : ServerConnection :=
  { c with
    requests := c.requests ++ [req]
    trace := c.trace ++ [.appended req] }

/--
`parser.parse_shift(buf)`: the request in progress, or a new one, learns its
headers; the parser keeps it until it is done.
-/
def parseShift
    (c : ServerConnection)
    (result : Parsed) :
    ServerConnection × Nat :=
  let (c, req) :=
    match c.parsing with
    | some req => (c, req)
    | none => (c.newRequest, c.nextId)
  let request := c.store req
  ({ c with
      parsing := if result.isDone then none else some req }.setRequest req
      { request with head := request.head.or result.head? },
    req)

/-! ## Leaving the deque -/

/-- `cleanup_request`, up to `finish_event`. -/
def cleanupRequest
    (c : ServerConnection)
    (req : Nat)
    (rest : List Nat) :
    ServerConnection :=
  ({ c with requests := rest }.setRequest req
    { c.store req with connection := false }).emit (.cleanedUp req)

/-- `server->remove(this)`; the server may run its `stop_event`. -/
def remove (c : ServerConnection) : Step :=
  .next (c.emit .removed) [.callback .stopEvent]

/-- `do_close`, up to the return of `drop_requests`. -/
def doClose
    (c : ServerConnection)
    (error : Option ErrorCode)
    (soft : Bool) :
    Step :=
  let c := c.emit (.closed soft)
  let c :=
    if soft then
      { c with stream := { c.stream with shutdownRequested := true } }
    else
      { c.stopIdleTimer with
        stream := { c.stream with listener := false, writeQueue := 0 } }
  .next c [.dropRequests error (.doClose soft)]

/-- `graceful_stop` -/
def gracefulStop (c : ServerConnection) : Step :=
  if c.requests = [] then
    c.doClose (some (.http .serverStopping)) true
  else
    .next { c with stopping := true } []

/-- `check_if_idle` -/
def checkIfIdle (c : ServerConnection) : Step :=
  if c.requests = [] then
    match c.idleTimer with
    | none => .fault .nullIdleTimer
    | some active =>
        if !active && c.stream.writeQueue == 0 then
          .next { c with idleTimer := some true } []
        else
          .next c []
  else
    .next c []

/-! ## Responding -/

/-- `respond` stores the response; the keep-alive limit makes it the last one. -/
def takeResponse
    (c : ServerConnection)
    (req : Nat)
    (response : ServerResponse) :
    ServerConnection :=
  let processed := c.requestsProcessed + 1
  -- `requests.size() == 1` makes `graceful_stop` take its second branch
  let limit :=
    c.config.maxKeepaliveRequests ≠ 0 ∧
      c.config.maxKeepaliveRequests ≤ processed ∧
      c.requests.length = 1
  let stopping := c.stopping || limit
  ({ c with
      requestsProcessed := processed
      stopping := stopping }.setResponse req
    { response with
      keepAlive := response.keepAlive && !stopping
      completed := !response.chunked || response.bodyLength != 0 }).emit
    (.responded req response)

/-- `ServerConnection::respond` -/
def respond
    (c : ServerConnection)
    (req : Nat)
    (response : ServerResponse) :
    Step :=
  if !(c.store req).connection then
    .fault .respondDetached
  else if (c.store req).response.isSome then
    c.throwing (.httpError "double response for request given")
  else
    let c := c.takeResponse req response
    match c.requests with
    | [] => .fault .emptyDeque
    | front :: _ =>
        if front = req then
          .next c [.writeNextResponse]
        else
          .next c []

/--
The end of `write_next_response`: captured chunks are flushed, or the request
is finished.
-/
def flushResponse
    (c : ServerConnection)
    (req : Nat)
    (tmpChunks : List Data) :
    Step :=
  if (c.store req).responseCompleted then
    .next c [.finishRequest]
  else
    .next (c.writeChunks req tmpChunks) []

/-- `write_next_response` -/
def writeNextResponse (c : ServerConnection) : Step :=
  match c.requests with
  | [] => .fault .emptyDeque
  | req :: rest =>
      match (c.store req).response with
      | none => .fault .nullResponse
      | some response =>
          let tmpChunks := (c.prepared response).tmpChunks
          let response := (c.prepared response).withoutTmpChunks
          let c := c.writeHead req response
          if !response.keepAlive || !(c.store req).headers.keepAlive then
            let c := c.startClosing req
            if rest = [] then
              c.flushResponse req tmpChunks
            else
              -- the current request is out of the deque while the others are dropped
              .next { c with requests := rest }
                [.dropRequests (some (.http .pipelineCanceled))
                  (.writeNextResponse req tmpChunks)]
          else
            c.flushResponse req tmpChunks

/-- `ServerConnection::send_continue` -/
def sendContinue (c : ServerConnection) (req : Nat) : Step :=
  match c.requests with
  | [] => .fault .sendWithoutRequests
  | front :: _ =>
      let headers := (c.store req).headers
      if front ≠ req then
        .next c []
      else if !headers.expectsContinue || headers.httpVersion == 10 then
        .next c []
      else if (c.store req).response.isSome then
        c.throwing
          (.httpError "100-continue can only be sent before response")
      else
        .next (c.write (.continue100 req)) []

/-- `ServerConnection::send_chunk` -/
def sendChunk
    (c : ServerConnection)
    (req : Nat)
    (response : ServerResponse)
    (data : Data) :
    Step :=
  let c := c.emit (.gaveChunk req data)
  match c.requests with
  | [] => .fault .sendWithoutRequests
  | front :: _ =>
      if data = [] then
        .next c []
      else if front = req then
        .next (c.write (.chunk req data)) []
      else
        .next
          (c.setResponse req { response with body := response.body ++ [data] })
          []

/-- `ServerConnection::send_final_chunk` -/
def sendFinalChunk
    (c : ServerConnection)
    (req : Nat)
    (response : ServerResponse)
    (data : Data) :
    Step :=
  let c := c.emit (.gaveFinalChunk req data)
  match c.requests with
  | [] => .fault .sendWithoutRequests
  | front :: _ =>
      let c := c.setResponse req { response with completed := true }
      if front = req then
        .next (c.write (.finalChunk req data)) [.finishRequest]
      else
        .next c []

/-- `finish_request`, up to the return of `cleanup_request`. -/
def finishRequest (c : ServerConnection) : Step :=
  match c.requests with
  | [] => .fault .emptyDeque
  | req :: rest =>
      if !(c.store req).responseCompleted then
        .fault .finishIncomplete
      else if !(c.store req).isDone then
        .next
          (c.setRequest req { c.store req with finishOnReceive := true })
          []
      else
        .next (c.cleanupRequest req rest)
          [.fire (.finishEvent req), .finishReturn]

/-- `finish_request` after `cleanup_request`. -/
def finishReturn (c : ServerConnection) : Step :=
  if c.closing || c.stopping then
    if c.requests = [] then
      c.doClose none true
    else
      .fault .finishWithRequests
  else
    match c.requests with
    | [] => c.checkIfIdle
    | front :: _ =>
        if (c.store front).response.isSome then
          .next c [.writeNextResponse]
        else
          .next c []

/-! ## Dropping, closing and upgrading -/

/-- One iteration of the loop of `drop_requests`, and the code it returns to. -/
def dropRequests
    (c : ServerConnection)
    (error : Option ErrorCode)
    (returns : DropReturn) :
    Step :=
  match c.requests with
  | req :: rest =>
      .next ((c.cleanupRequest req rest).emit (.dropped req error))
        [.fire (.finishEvent req), .dropNotify req error,
          .dropRequests error returns]
  | [] =>
      match returns with
      | .doClose true => .next c []
      | .doClose false => c.remove
      | .writeNextResponse req tmpChunks =>
          { c with requests := [req] }.flushResponse req tmpChunks

/-- The loop body of `drop_requests` after `cleanup_request`. -/
def dropNotify
    (c : ServerConnection)
    (req : Nat)
    (error : Option ErrorCode) :
    Step :=
  let request := c.store req
  if !request.isDone then
    if request.partialMode then
      .next c [.fire (.partialEvent req error)]
    else
      .next c [.fire (.errorEvent req error)]
  else if request.responseCompleted then
    .next c []
  else
    .next c [.fire (.dropEvent req error)]

/-- `ServerConnection::upgrade`, up to the return of `cleanup_request`. -/
def upgrade (c : ServerConnection) (req : Nat) : Step :=
  if c.requests = [req] then
    let c :=
      { c with
        stream := { c.stream with listener := false }
        idleTimer := none }.emit (.upgraded req)
    .next (c.cleanupRequest req []) [.fire (.finishEvent req), .upgradeReturn]
  else
    c.throwing (.logicError "should not happen")

/-! ## Request errors -/

/-- The body of `default_error_response`. -/
def errorPage (fullMessage : String) : Data :=
  ("<html>\n" ++
      "<head><title>").toList ++
    fullMessage.toList ++
    ("</title></head>\n" ++
      "<body bgcolor=\"white\">\n" ++
      "<center><h1>").toList ++
    fullMessage.toList ++
    ("</h1></center>\n" ++
      "<hr><center>UniEvent-HTTP</center>\n" ++
      "</body>\n" ++
      "</html>\n").toList ++
    (List.replicate 6
      ("<!-- a padding to disable MSIE and Chrome friendly error page -->\n"
        : String).toList).flatten

/-- `default_error_response` -/
def defaultErrorResponse (c : ServerConnection) (code : Nat) : ServerResponse where
  code := code
  keepAlive := false
  date := some c.config.dateHeaderNow
  body := [errorPage (c.config.fullMessage code)]

/-- `request_error`, up to the return of its callback. -/
def requestError
    (c : ServerConnection)
    (req : Nat)
    (error : ErrorCode) :
    Step :=
  let c := c.readIgnore
  let callback :=
    if (c.store req).partialMode then
      Callback.partialEvent req (some error)
    else
      Callback.errorEvent req (some error)
  .next c [.fire callback, .requestErrorReturn req]

/-- `request_error` after its callback. -/
def requestErrorReturn (c : ServerConnection) (req : Nat) : Step :=
  match (c.store req).response with
  | none => c.respond req (c.defaultErrorResponse 400)
  | some response =>
      if response.keepAlive then
        .next (c.setResponse req { response with keepAlive := false }) []
      else
        .next c []

/-! ## Reading -/

/-- The start of the loop body of `on_read`: the parsed request joins the deque. -/
def parseRequest
    (c : ServerConnection)
    (result : Parsed) :
    ServerConnection × Nat :=
  let (c, req) := c.stopIdleTimer.parseShift result
  let c := if c.requests.getLast? = some req then c else c.append req
  (c.setRequest req { c.store req with isDone := result.isDone }, req)

/-- One iteration of the loop of `on_read`, up to the return of `route_event`. -/
def onReadLoop (c : ServerConnection) : List Parsed → Step
  | [] => .next c []
  | result :: rest =>
      let (c, req) := c.parseRequest result
      match result with
      | .error error => .next c [.requestError req error]
      | .headers => .next c []
      | .body _ | .done _ =>
          -- a buffer is consumed to its end unless the request is finished
          let rest := if result.isDone then rest else []
          if 1 < c.requests.length ∧
              (c.store req).headers.connection = "upgrade" then
            .next c
              [.requestError req (.http .upgradeInPipeline), .readIgnore]
          else if (c.store req).routed then
            .next c [.routed req result.isDone rest]
          else
            .next (c.setRequest req { c.store req with routed := true })
              [.fire (.routeEvent req), .routed req result.isDone rest]

/-- The loop body of `on_read` after `route_event`. -/
def routed
    (c : ServerConnection)
    (req : Nat)
    (done : Bool)
    (buf : List Parsed) :
    Step :=
  if (c.store req).partialMode then
    .next c [.fire (.partialEvent req none), .received req done buf]
  else if done then
    .next c
      [.fire (.receiveEvent req), .fire (.requestEvent req),
        .received req done buf]
  else
    .next c [.received req done buf]

/-- The loop body of `on_read` after the receiving callbacks. -/
def received
    (c : ServerConnection)
    (req : Nat)
    (done : Bool)
    (buf : List Parsed) :
    Step :=
  if !done then
    .next c [.onRead buf]
  else if (c.store req).finishOnReceive then
    .next c [.finishRequest, .onRead buf]
  else if c.closing || !(c.store req).headers.keepAlive then
    .next c.readIgnore []
  else
    .next c [.onRead buf]

/-- The error branch of `on_read`. -/
def onReadError (c : ServerConnection) (error : ErrorCode) : Step :=
  let c := c.stopIdleTimer
  let c :=
    match c.requests.getLast? with
    | none => c.newRequest.append c.nextId
    | some last =>
        if (c.store last).isDone then
          c.newRequest.append c.nextId
        else
          c
  match c.requests.getLast? with
  | none => .fault .emptyDeque
  | some last =>
      .next (c.setRequest last { c.store last with isDone := true })
        [.requestError last error]

/-- `on_write` -/
def onWrite (c : ServerConnection) : Option ErrorCode → Step
  | some error => c.doClose (some error) false
  | none => c.checkIfIdle

/-- `on_shutdown` -/
def onShutdown (c : ServerConnection) : Step :=
  { c.stopIdleTimer with
    stream := { c.stream with listener := false } }.remove

/-- The callback of the idle timer. -/
def onIdleTimeout (c : ServerConnection) : Step :=
  if c.requests = [] then
    { c with idleTimer := some false }.doClose none false
  else
    .fault .idleWithRequests

/-! ## The calls of the application -/

/-- `ServerRequest::respond` -/
def requestRespond
    (c : ServerConnection)
    (req : Nat)
    (response : ServerResponse) :
    Step :=
  if (c.store req).connection then
    c.respond req response
  else
    .next c []

/-- `ServerRequest::send_continue` -/
def requestSendContinue (c : ServerConnection) (req : Nat) : Step :=
  if (c.store req).connection then
    c.sendContinue req
  else
    .next c []

/-- `ServerResponse::send_chunk` and `ServerResponse::send_final_chunk`. -/
def responseSend
    (c : ServerConnection)
    (req : Nat)
    (send : ServerResponse → Step) :
    Step :=
  match (c.store req).response with
  | none => .next c []
  | some response =>
      if response.completed then
        c.throwing (.httpError
          "can't send chunk: response has already been completed")
      else if (c.store req).connection then
        send response
      else
        .next c []

/-- `ServerRequest::drop` -/
def requestDrop (c : ServerConnection) (req : Nat) : Step :=
  if !(c.store req).connection || (c.store req).responseCompleted then
    .next c []
  else
    c.doClose (some .operationCanceled) false

/-- `ServerRequest::upgrade` -/
def requestUpgrade (c : ServerConnection) (req : Nat) : Step :=
  if !(c.store req).connection then
    .next c []
  else if !iequals (c.store req).headers.connection "upgrade" then
    .next c []
  else
    c.upgrade req

/-! ## The machine -/

/-- The code of every frame that is not a callback. -/
def code : Frame → ServerConnection → Step
  | .callback _, c => .next c []
  | .fire callback, c => .next (c.emit (.fired callback)) [.callback callback]
  | .onRead buf, c => c.onReadLoop buf
  | .routed req done buf, c => c.routed req done buf
  | .received req done buf, c => c.received req done buf
  | .requestError req error, c => c.requestError req error
  | .requestErrorReturn req, c => c.requestErrorReturn req
  | .readIgnore, c => .next c.readIgnore []
  | .writeNextResponse, c => c.writeNextResponse
  | .finishRequest, c => c.finishRequest
  | .finishReturn, c => c.finishReturn
  | .dropRequests error returns, c => c.dropRequests error returns
  | .dropNotify req error, c => c.dropNotify req error
  | .upgradeReturn, c => c.remove

/-- The stream may deliver a buffer. -/
def canRead (c : ServerConnection) : Bool :=
  c.stream.listener && !c.stream.ignoring && !c.stream.ended

/--
The code of the entry points.  The application may call from a callback or from
outside; the event loop acts only when nothing runs.
-/
def accept : Input → Option Frame → ServerConnection → Option Step
  | .respond req response, _, c =>
      -- a new `ServerResponse` is not completed
      if response.completed then none else some (c.requestRespond req response)
  | .sendContinue req, _, c => some (c.requestSendContinue req)
  | .sendChunk req data, _, c =>
      some (c.responseSend req fun response => c.sendChunk req response data)
  | .sendFinalChunk req data, _, c =>
      some (c.responseSend req fun response =>
        c.sendFinalChunk req response data)
  | .drop req, _, c => some (c.requestDrop req)
  | .upgrade req, _, c => some (c.requestUpgrade req)
  | .enablePartial req, _, c =>
      some (.next
        (c.setRequest req { c.store req with partialMode := true }) [])
  | .close error, _, c => some (c.doClose error false)
  | .shutdown error, _, c => some (c.doClose error true)
  | .gracefulStop, _, c => some c.gracefulStop
  | .onRead buf, none, c =>
      if c.canRead then some (.next c [.onRead buf]) else none
  | .onReadError error, none, c =>
      if c.stream.listener && !c.stream.ended then
        some ({ c with stream := { c.stream with ended := true } }.onReadError
          error)
      else
        none
  | .onEof, none, c =>
      if c.stream.listener && !c.stream.ended then
        some ({ c with stream := { c.stream with ended := true } }.doClose
          (some .connectionReset) true)
      else
        none
  | .onWrite error, none, c =>
      if c.stream.listener && 0 < c.stream.writeQueue then
        some ({ c with
          stream := { c.stream with
            writeQueue := c.stream.writeQueue - 1 } }.onWrite error)
      else
        none
  | .onShutdown, none, c =>
      if c.stream.listener && c.stream.shutdownRequested then
        some c.onShutdown
      else
        none
  | .onConnectionError error, none, c =>
      if c.stream.listener then
        some (c.doClose (some error) false)
      else
        none
  | .idleTimeout, none, c =>
      if c.idleTimer = some true then some c.onIdleTimeout else none
  | _, some _, _ => none

/-- Application code is running in the frame. -/
def isCallback : Frame → Bool
  | .callback _ => true
  | _ => false

/-- The connection as a call machine. -/
def machine : CallMachine.Machine ServerConnection Frame Input Fault where
  code := code
  isCallback := isCallback
  mayThrow := fun _ => false
  handler := fun _ => none
  accept := accept

/-- The constructor `ServerConnection (Server*, id, conf, stream)`. -/
def initial (config : ConnectionConfig) : ServerConnection where
  config := config
  idleTimer := if config.idleTimeout = 0 then none else some true

/-- A connection with its call stack. -/
abbrev Config := CallMachine.Config ServerConnection Frame Fault

/-- One choice of the application or the event loop. -/
abbrev Label := CallMachine.Label Input

/-- A new connection, with nothing running. -/
def start (config : ConnectionConfig) : Config where
  state := initial config
  stack := []

/-- Execute a list of choices on a new connection. -/
def run? (config : ConnectionConfig) (labels : List Label) : Option Config :=
  machine.run? (start config) labels

/-- Two requests arrive in one buffer, and every callback returns. -/
def twoRequests : List Label :=
  [.input (.onRead [.done {}, .done {}]),
    .tick, .tick, .ret, .tick, .tick, .ret, .tick, .ret, .tick,
    .tick, .tick, .ret, .tick, .tick, .ret, .tick, .ret, .tick, .tick]

end ServerConnection

end UniEventHttp
