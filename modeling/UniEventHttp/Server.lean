import Mathlib.Data.List.Range
import UniEventHttp.CallMachine
import UniEventHttp.Errors

namespace UniEventHttp

/-!
# The server

`Server` with its listeners and its connections.  A connection is known here by
its id: closing it runs application code, in which any entry point of the server
may be called, before it is removed.  Whether a location can be bound is decided
by the operating system, so it is an input of `run`.
-/

namespace Server

/-- `Server::State` -/
inductive State where
  | initial
  | running
  | stopping
  deriving Repr, DecidableEq

/-- The application code that the server waits for. -/
inductive Callback where
  | runEvent
  | stopEvent
  | connectEvent (conn : Nat)
  /-- The callbacks of `do_close` or `upgrade` on a connection. -/
  | closing (conn : Nat)
  deriving Repr, DecidableEq

/-- What is observed of a server, in order. -/
inductive Event where
  /-- `run` has started to listen. -/
  | ran
  /-- `stop_event` is fired: the server at that moment. -/
  | stopped (state : State) (listeners connections : List Nat)
  | connected (conn : Nat)
  /-- `graceful_stop` of a connection is called. -/
  | stopping (conn : Nat)
  | removed (conn : Nat)
  | threw (exception : Exception)
  deriving Repr, DecidableEq

/-- The code that is to be executed when the frames above have returned. -/
inductive Frame where
  /-- Application code is running. -/
  | callback (callback : Callback)
  /-- `while (_connections.size())` of `stop`. -/
  | closeAll
  /-- `server->remove(this)` at the end of `do_close` or `upgrade`. -/
  | remove (conn : Nat)
  deriving Repr, DecidableEq

/-- `assert(_state == State::stopping)` of `_stop_if_done`. -/
inductive Fault where
  | notStopping
  deriving Repr, DecidableEq

/-- Entry points: calls of the application and events of the loop. -/
inductive Input where
  /-- `run`: so many locations can be bound, and the next one throws. -/
  | run (bound : Nat) (error : ErrorCode)
  | stop
  | gracefulStop
  /-- A connection is closed for good, by the application or after an error. -/
  | close (conn : Nat)
  | onEstablish (error : Option ErrorCode)
  /-- `ServerConnection::on_shutdown` -/
  | onShutdown (conn : Nat)
  deriving Repr, DecidableEq

end Server

/-- `Server` -/
structure Server where
  /-- The number of `_conf.locations`. -/
  locations : Nat
  /-- `_listeners`, each by the index of its location. -/
  listeners : List Nat := []
  /-- `_state` -/
  state : Server.State := .initial
  /-- `_connections` -/
  connections : List Nat := []
  lastid : Nat := 0
  /-- What has been observed so far. -/
  trace : List Server.Event := []

namespace Server

/-- What a piece of code of the server ends with. -/
abbrev Step := CallMachine.Outcome Server Frame Fault

/-- Record an observation. -/
def emit (s : Server) (event : Event) : Server :=
  { s with trace := s.trace ++ [event] }

/-- An exception reaches the caller. -/
def throwing (s : Server) (exception : Exception) : Step :=
  .raise (s.emit (.threw exception))

/-! ## Running and stopping -/

/-- `start_listening` throws an exception, or the server listens on every location. -/
def startListening
    (s : Server)
    (bound : Nat)
    (error : ErrorCode) :
    Server × Option Exception :=
  if s.listeners ≠ [] then
    (s, some (.httpError "server is already listening"))
  else if bound < s.locations then
    ({ s with listeners := List.range bound }, some (.unchecked error))
  else
    ({ s with listeners := List.range s.locations }, none)

/-- `stop_listening` -/
def stopListening (s : Server) : Server :=
  { s with listeners := [] }

/-- `run` -/
def run (s : Server) (bound : Nat) (error : ErrorCode) : Step :=
  if s.state ≠ .initial then
    s.throwing (.httpError "server is already running")
  else
    match ({ s with state := .running } : Server).startListening bound error with
    | (s, some exception) => s.throwing exception
    | (s, none) => .next (s.emit .ran) [.callback .runEvent]

/-- `_state = State::initial; stop_event();` -/
def finishStop (s : Server) : Step :=
  let s := { s with state := .initial }
  .next (s.emit (.stopped s.state s.listeners s.connections))
    [.callback .stopEvent]

/-- `_stop_if_done` -/
def stopIfDone (s : Server) : Step :=
  if s.state ≠ .stopping then
    .fault .notStopping
  else if s.connections ≠ [] then
    .next s []
  else
    s.finishStop

/-- One iteration of the loop of `stop`, and the code after it. -/
def closeAll (s : Server) : Step :=
  match s.connections with
  | [] => s.finishStop
  | conn :: _ => .next s [.callback (.closing conn), .remove conn, .closeAll]

/-- `stop` -/
def stop (s : Server) : Step :=
  if s.state = .initial then
    .next s []
  else
    .next s.stopListening [.closeAll]

/-- `graceful_stop` -/
def gracefulStop (s : Server) : Step :=
  if s.state ≠ .running then
    .next s []
  else
    let s := { s with state := .stopping }.stopListening
    { s with trace := s.trace ++ s.connections.map Event.stopping }.stopIfDone

/-! ## Connections -/

/-- `remove` -/
def remove (s : Server) (conn : Nat) : Step :=
  let s := { s with connections := s.connections.erase conn }.emit (.removed conn)
  if s.state = .stopping then
    s.stopIfDone
  else
    .next s []

/-- `on_establish` -/
def onEstablish (s : Server) : Option ErrorCode → Step
  | some _ => .next s []
  | none =>
      let conn := s.lastid + 1
      .next
        ({ s with
          lastid := conn
          connections := s.connections ++ [conn] }.emit (.connected conn))
        [.callback (.connectEvent conn)]

/-! ## The machine -/

/-- The code of every frame that is not a callback. -/
def code : Frame → Server → Step
  | .callback _, s => .next s []
  | .closeAll, s => s.closeAll
  | .remove conn, s => s.remove conn

/--
The code of the entry points.  The application may call from a callback or from
outside; the event loop acts only when nothing runs.
-/
def accept : Input → Option Frame → Server → Option Step
  | .run bound error, _, s => some (s.run bound error)
  | .stop, _, s => some s.stop
  | .gracefulStop, _, s => some s.gracefulStop
  | .close conn, _, s =>
      some (.next s [.callback (.closing conn), .remove conn])
  | .onEstablish error, none, s => some (s.onEstablish error)
  | .onShutdown conn, none, s => some (s.remove conn)
  | _, some _, _ => none

/-- Application code is running in the frame. -/
def isCallback : Frame → Bool
  | .callback _ => true
  | _ => false

/-- The server as a call machine. -/
def machine : CallMachine.Machine Server Frame Input Fault where
  code := code
  isCallback := isCallback
  mayThrow := fun _ => false
  handler := fun _ => none
  accept := accept

/-- A server with its call stack. -/
abbrev Config := CallMachine.Config Server Frame Fault

/-- One choice of the application or the event loop. -/
abbrev Label := CallMachine.Label Input

/-- A new server with so many locations, with nothing running. -/
def start (locations : Nat) : Config where
  state := { locations := locations }
  stack := []

/-- Execute a list of choices on a new server. -/
def run? (locations : Nat) (labels : List Label) : Option Config :=
  machine.run? (start locations) labels

end Server

end UniEventHttp
