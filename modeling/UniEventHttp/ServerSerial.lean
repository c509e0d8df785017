import UniEventHttp.DrivenRun
import UniEventHttp.ServerEvents
import UniEventHttp.ServerSegments

namespace UniEventHttp.ServerConnection

/-!
# Requests one by one

The connection with its parse loop, its pipeline and its deferred `finish_request`
under an application that answers every request at once: a loop that routes one
request after another and writes its response.  Without an idle timer it fails at
the end of a response; and a connection that is shut down in the deferred
`finish_request` reads on, adrift.
-/

/-! ## Buffers -/

/-- The buffer that a choice delivers. -/
def buffer? : Label → Option (List Parsed)
  | .input (.onRead buf) => some buf
  | _ => none

/-- The buffers of a run, in order. -/
def buffers (labels : List Label) : List (List Parsed) :=
  labels.filterMap buffer?

/-- The stream of requests is cut into the buffers of the run and later ones. -/
def Cuts
    (heads : List RequestHead)
    (labels : List Label)
    (later : List (List Parsed)) : Prop :=
  Reports heads (buffers labels ++ later).flatten ∧
    ∀ buf ∈ buffers labels, Consumed buf

/-! ## The application and the loop -/

/-- The request waits for its response. -/
def unanswered (c : ServerConnection) (req : Nat) : Bool :=
  (c.store req).connection && (c.store req).response.isNone

/-- The request that the application answers in a callback. -/
def answersIn
    (handler : Handler)
    (c : ServerConnection) :
    Callback → Option Nat
  | .routeEvent req =>
      if c.unanswered req &&
          handler.onRoute req (c.store req).headers then
        some req
      else
        none
  | .requestEvent req => if c.unanswered req then some req else none
  | _ => none

/-- The choice that is left while something runs. -/
def due (handler : Handler) (config : Config) : Option Label :=
  match config.stack with
  | [] => none
  | .callback callback :: _ =>
      match config.state.answersIn handler callback with
      | some req =>
          some (.input (.respond req
            (handler.response req (config.state.store req).headers)))
      | none => some .ret
  | _ :: _ => some .tick

/-- The loop delivers a buffer, or it completes a write. -/
def isDelivery : Label → Bool
  | .input (.onRead _) => true
  | .input (.onWrite none) => true
  | _ => false

/--
The application answers as it is told to and does nothing else; the loop delivers
buffers and completes writes.
-/
def Obeys (handler : Handler) (config : Config) (label : Label) : Prop :=
  (∀ choice ∈ due handler config, label = choice) ∧
    (due handler config = none → isDelivery label = true)

instance (handler : Handler) (config : Config) (label : Label) :
    Decidable (Obeys handler config label) :=
  inferInstanceAs (Decidable (_ ∧ _))

/-- What has been seen of an observation. -/
def sight? : Event → Option Sight
  | .fired (.routeEvent req) => some (.routed req)
  | .wrote piece => some (.wrote piece)
  | .closed soft => some (.closed soft)
  | _ => none

/-- What has been seen of the work of the connection. -/
def seen (c : ServerConnection) : List Sight :=
  c.trace.filterMap sight?

/-! ## The phases of the connection -/

section Phases

variable (config : ConnectionConfig)
variable (handler : Handler)

/-- There is an idle timer, unless idling has no limit. -/
def HasTimer (c : ServerConnection) : Prop :=
  c.idleTimer = none → config.idleTimeout = 0

/-- The connection is open; it is to stay open, unless it is adrift. -/
structure Working (adrift : Bool) (c : ServerConnection) : Prop where
  sameConfig : c.config = config
  closing : c.closing = adrift
  stopping : adrift = false → c.stopping = false
  canRead : c.canRead = true
  timer : HasTimer config c

/-- The connection works on one request. -/
structure WorksOn
    (adrift : Bool)
    (c : ServerConnection)
    (req processed : Nat)
    (request : ServerRequest) : Prop where
  working : Working config adrift c
  requests : c.requests = [req]
  parsing : c.parsing = if request.isDone then none else some req
  nextId : c.nextId = req + 1
  processed : c.requestsProcessed = processed
  stored : c.store req = request

/-- The connection waits for the next request. -/
structure Rests (adrift : Bool) (c : ServerConnection) (req : Nat) : Prop where
  working : Working config adrift c
  requests : c.requests = []
  parsing : c.parsing = none
  nextId : c.nextId = req
  processed : c.requestsProcessed = req

/-- The connection reads no more. -/
structure Ceased (c : ServerConnection) : Prop where
  requests : c.requests = []
  ignoring : c.stream.ignoring = true
  timer : HasTimer config c

/-- The connection, at each stage of the stream. -/
inductive Phase (c : ServerConnection) : Stage → Prop where
  | resting {adrift : Bool} {req : Nat} :
      Rests config adrift c req →
      Phase c (.next adrift req)
  | receiving {adrift : Bool} {req : Nat} :
      WorksOn config adrift c req req { connection := true } →
      Phase c (.next adrift req)
  | routed {req : Nat} {head : RequestHead} :
      WorksOn config false c req req
        { connection := true
          routed := true
          head := some head } →
      Phase c (.routed req head)
  | answered {req : Nat} {head : RequestHead} :
      WorksOn config (!goesOn config handler req head) c req (req + 1)
        { connection := true
          response := some (answer config handler req head)
          routed := true
          finishOnReceive := true
          head := some head } →
      Phase c (.answered req head)
  | ceased :
      Ceased config c → Phase c .ceased

/-- What has been seen is completed by these reports. -/
structure Completes
    (total : List Sight)
    (strays : Bool)
    (log : List Sight)
    (stage : Stage)
    (reports : List Parsed) : Prop where
  sound : NoErrors reports
  sights : log ++ stage.sights config handler reports = total
  strays : stage.strays config handler reports = strays

/-- What the connection has shown is completed by these reports. -/
def Accounted
    (total : List Sight)
    (strays : Bool)
    (c : ServerConnection)
    (reports : List Parsed) : Prop :=
  ∃ stage,
    Phase config handler c stage ∧
      Completes config handler total strays c.seen stage reports

/-- Without a limit on idling, the end of a response calls a null timer. -/
def Crashed (next : Config) : Prop :=
  next.fault = some .nullIdleTimer ∧ config.idleTimeout = 0

/-- All has been seen, and there may be more. -/
def Strayed (total : List Sight) (strays : Bool) (next : Config) : Prop :=
  strays = true ∧ total <+: next.state.seen

variable {config handler}

/-- One report after another. -/
theorem Completes.step
    {total log : List Sight}
    {strays : Bool}
    {stage : Stage}
    {result : Parsed}
    {reports : List Parsed}
    (completes : Completes config handler total strays log stage (result :: reports))
    (calm : stage.isStray result = false) :
    Completes config handler total strays
      (log ++ (stage.report config handler result).2)
      (stage.report config handler result).1 reports where
  sound error member := completes.sound error (List.mem_cons_of_mem _ member)
  sights := by
    rw [List.append_assoc]
    exact completes.sights
  strays := by
    have isStrays := completes.strays
    rwa [Stage.strays, calm, Bool.false_or] at isStrays

end Phases

/-! ## Driving the connection -/

/-- The application and the loop drive the connection to a goal. -/
def Goes
    (handler : Handler)
    (c : ServerConnection)
    (stack : List Frame)
    (goal : Config → Prop) : Prop :=
  machine.Drives (Obeys handler) (fun label => buffer? label = none)
    ⟨c, stack, none⟩ goal

section Goes

variable {handler : Handler}
variable {c next : ServerConnection}
variable {rest : List Frame}
variable {goal : Config → Prop}

theorem Goes.refl
    {stack : List Frame}
    (reached : goal ⟨c, stack, none⟩) :
    Goes handler c stack goal :=
  CallMachine.Machine.Drives.refl reached

theorem Goes.tick
    {frame : Frame}
    {frames : List Frame}
    (isCode : isCallback frame = false)
    (executed : code frame c = .next next frames)
    (goes : Goes handler next (frames ++ rest) goal) :
    Goes handler c (frame :: rest) goal := by
  refine CallMachine.Machine.Drives.tick isCode ?_ rfl executed goes
  intro label obeys
  cases frame with
  | callback callback =>
      cases isCode
  | _ =>
      exact obeys.1 .tick rfl

theorem Goes.fault
    {frame : Frame}
    {reason : Fault}
    (isCode : isCallback frame = false)
    (executed : code frame c = .fault reason)
    (reached : goal ⟨c, frame :: rest, some reason⟩) :
    Goes handler c (frame :: rest) goal := by
  refine CallMachine.Machine.Drives.fault isCode ?_ rfl executed reached
  intro label obeys
  cases frame with
  | callback callback =>
      cases isCode
  | _ =>
      exact obeys.1 .tick rfl

theorem Goes.ret
    {callback : Callback}
    (silent : c.answersIn handler callback = none)
    (goes : Goes handler c rest goal) :
    Goes handler c (.callback callback :: rest) goal := by
  refine CallMachine.Machine.Drives.ret rfl ?_ rfl goes
  intro label obeys
  exact obeys.1 .ret (by simp [due, silent])

theorem Goes.respond
    {callback : Callback}
    {req : Nat}
    {frames : List Frame}
    (answers : c.answersIn handler callback = some req)
    (fresh :
      (handler.response req (c.store req).headers).completed = false)
    (executed :
      c.requestRespond req (handler.response req (c.store req).headers) =
        .next next frames)
    (goes : Goes handler next (frames ++ .callback callback :: rest) goal) :
    Goes handler c (.callback callback :: rest) goal := by
  have onlyCall :
      ∀ label,
        Obeys handler ⟨c, .callback callback :: rest, none⟩ label →
        label =
          .input (.respond req
            (handler.response req (c.store req).headers)) := by
    intro label obeys
    exact obeys.1 _ (by simp [due, answers])
  refine CallMachine.Machine.Drives.call rfl onlyCall rfl ?_ goes
  simp [machine, accept, fresh, executed]

/-- An event that the application does not answer. -/
theorem Goes.fire
    {callback : Callback}
    (silent : ∀ event, (c.emit event).answersIn handler callback = none)
    (goes : Goes handler (c.emit (.fired callback)) rest goal) :
    Goes handler c (.fire callback :: rest) goal :=
  .tick rfl rfl (.ret (silent _) goes)

end Goes

/-! ## What is seen -/

section Seen

variable (c : ServerConnection)

@[simp] theorem seen_emit (event : Event) :
    (c.emit event).seen = c.seen ++ (sight? event).toList := by
  cases shape : sight? event <;>
    simp [seen, emit, List.filterMap_append, shape]

@[simp] theorem seen_write (piece : Piece) :
    (c.write piece).seen = c.seen ++ [.wrote piece] := by
  simp [seen, write, List.filterMap_append, sight?]

@[simp] theorem seen_setRequest (req : Nat) (request : ServerRequest) :
    (c.setRequest req request).seen = c.seen :=
  rfl

@[simp] theorem seen_setResponse (req : Nat) (response : ServerResponse) :
    (c.setResponse req response).seen = c.seen :=
  rfl

@[simp] theorem seen_cleanupRequest (req : Nat) (rest : List Nat) :
    (c.cleanupRequest req rest).seen = c.seen := by
  simp [cleanupRequest, sight?]
  rfl

end Seen

/-- The idle timer may be started, and nothing else happens, unless there is none. -/
theorem checkIfIdle_timer (c : ServerConnection) :
    (∃ timer,
      c.checkIfIdle = .next { c with idleTimer := timer } [] ∧
        (timer = none → c.idleTimer = none)) ∨
      c.checkIfIdle = .fault .nullIdleTimer ∧ c.idleTimer = none := by
  by_cases empty : c.requests = []
  · cases isTimer : c.idleTimer with
    | none =>
        exact Or.inr ⟨by simp [checkIfIdle, empty, isTimer], rfl⟩
    | some active =>
        by_cases starts : (!active && c.stream.writeQueue == 0) = true
        · exact Or.inl ⟨some true, by simp [checkIfIdle, empty, isTimer, starts], by simp⟩
        · have same : { c with idleTimer := some active } = c := by
            rw [← isTimer]
          refine Or.inl ⟨some active, ?_, by simp⟩
          rw [same]
          simp only [checkIfIdle, empty, isTimer, ↓reduceIte, starts, Bool.false_eq_true]
  · exact Or.inl ⟨c.idleTimer, by simp [checkIfIdle, empty], id⟩

/-! ## Answering -/

section Answering

variable {config : ConnectionConfig}
variable {handler : Handler}

theorem answer_completed
    (whole : handler.Whole)
    (req : Nat)
    (head : RequestHead) :
    (answer config handler req head).completed = true := by
  have given := whole.whole req head
  simp only [answer, accepted, ServerResponse.withDefaults]
  cases chunked : (handler.response req head).chunked with
  | false =>
      rfl
  | true =>
      simpa using given chunked

/-- The response to the only request is given, and its head is written. -/
theorem requestRespond_first
    {c : ServerConnection}
    {req : Nat}
    {request : ServerRequest}
    {response : ServerResponse}
    (works : WorksOn config false c req req request)
    (attached : request.connection = true)
    (unanswered : request.response = none) :
    c.requestRespond req response =
      .next (c.takeResponse req response) [.writeNextResponse] := by
  simp [requestRespond, respond, works.stored, attached, unanswered,
    takeResponse, emit, setResponse, setRequest, works.requests]

/-- What `respond` leaves for `write_next_response`. -/
structure Taken
    (config : ConnectionConfig)
    (next : ServerConnection)
    (req : Nat)
    (request : ServerRequest)
    (log : List Sight) : Prop where
  sameConfig : next.config = config
  requests : next.requests = [req]
  parsing : next.parsing = if request.isDone then none else some req
  nextId : next.nextId = req + 1
  processed : next.requestsProcessed = req + 1
  closing : next.closing = false
  stopping : next.stopping = isLast config req
  canRead : next.canRead = true
  timer : HasTimer config next
  stored : next.store req = request
  seen : next.seen = log

theorem WorksOn.taken
    {c : ServerConnection}
    {req : Nat}
    {request : ServerRequest}
    (works : WorksOn config false c req req request)
    (head : RequestHead) :
    Taken config (c.takeResponse req (handler.response req head)) req
      { request with response := some (accepted config handler req head) }
      c.seen := by
  obtain ⟨sameConfig, closing, stopping, reads, timer⟩ := works.working
  constructor <;>
    simp_all [takeResponse, ServerConnection.accepted, emit, setResponse,
      setRequest, ServerConnection.seen, works.stored, works.processed,
      works.requests, works.parsing, works.nextId, isLast, sight?,
      ServerConnection.canRead, HasTimer]

/-- `write_next_response` for a response that is complete. -/
theorem writeNextResponse_first
    {c : ServerConnection}
    {req : Nat}
    {given written : ServerResponse}
    (requests : c.requests = [req])
    (stored : (c.store req).response = some given)
    (prepared : c.prepared given = written)
    (completed : written.completed = true) :
    c.writeNextResponse =
      .next
        (if written.keepAlive && (c.store req).headers.keepAlive then
          c.writeHead req written
        else
          (c.writeHead req written).startClosing req)
        [.finishRequest] := by
  have same : written.withoutTmpChunks = written := by
    simp [ServerResponse.withoutTmpChunks, completed]
  have sameHeaders :
      ((c.writeHead req written).store req).headers =
        (c.store req).headers := by
    simp [writeHead, write, setResponse, ServerRequest.headers]
  have finishes :
      ∀ next : ServerConnection,
        (next.store req).response = some written →
        next.flushResponse req written.tmpChunks =
          .next next [.finishRequest] := by
    intro next isWritten
    simp [flushResponse, ServerRequest.responseCompleted, isWritten,
      completed]
  have isWritten :
      ((c.writeHead req written).store req).response = some written := by
    simp [writeHead, write, setResponse]
  unfold writeNextResponse
  simp only [requests, stored, prepared, same, sameHeaders]
  cases keeps : written.keepAlive && (c.store req).headers.keepAlive with
  | true =>
      simp only [Bool.and_eq_true] at keeps
      simp [keeps, finishes _ isWritten]
  | false =>
      have closes :
          (!written.keepAlive || !(c.store req).headers.keepAlive) = true := by
        rw [← Bool.not_and, keeps]
        rfl
      have stillWritten :
          (((c.writeHead req written).startClosing req).store req).response =
            some written := by
        unfold startClosing
        dsimp only
        split <;> exact isWritten
      simp [closes, finishes _ stillWritten]

/--
The response to the only request has been written, at the end of the request or early.
-/
structure Wrote
    (config : ConnectionConfig)
    (handler : Handler)
    (early : Bool)
    (next : ServerConnection)
    (req : Nat)
    (head : RequestHead)
    (request : ServerRequest)
    (log : List Sight) : Prop where
  requests : next.requests = [req]
  parsing : next.parsing = if request.isDone then none else some req
  nextId : next.nextId = req + 1
  processed : next.requestsProcessed = req + 1
  stored :
    next.store req =
      { request with response := some (answer config handler req head) }
  seen : next.seen = log
  timer : HasTimer config next
  stays :
    goesOn config handler req head = true ∨ early = true →
    Working config (!goesOn config handler req head) next
  ends :
    goesOn config handler req head = false →
    early = false →
    next.closing = true ∧ next.stream.ignoring = true

theorem isLast_of_goesOn
    {req : Nat}
    {head : RequestHead}
    (goes : goesOn config handler req head = true) :
    isLast config req = false := by
  simp only [goesOn, answer, accepted, ServerResponse.withDefaults,
    Bool.and_eq_true, Bool.not_eq_true'] at goes
  exact goes.1.2

theorem startClosing_keeps (c : ServerConnection) (req : Nat) :
    (c.startClosing req).requests = c.requests ∧
      (c.startClosing req).parsing = c.parsing ∧
      (c.startClosing req).nextId = c.nextId ∧
      (c.startClosing req).requestsProcessed = c.requestsProcessed ∧
      (c.startClosing req).store = c.store ∧
      (c.startClosing req).idleTimer = c.idleTimer ∧
      (c.startClosing req).seen = c.seen := by
  unfold startClosing
  dsimp only
  split
  · refine ⟨rfl, rfl, rfl, rfl, rfl, rfl, ?_⟩
    simp [readIgnore, seen, sight?]
  · exact ⟨rfl, rfl, rfl, rfl, rfl, rfl, rfl⟩

theorem Taken.wrote
    {taken : ServerConnection}
    {req : Nat}
    {head : RequestHead}
    {request : ServerRequest}
    {log : List Sight}
    (took : Taken config taken req request log) :
    Wrote config handler (!request.isDone)
      (if goesOn config handler req head then
        taken.writeHead req (answer config handler req head)
      else
        (taken.writeHead req (answer config handler req head)).startClosing
          req)
      req head request
      (log ++ [.wrote (.head req (answer config handler req head))]) := by
  have isStored :
      (taken.writeHead req (answer config handler req head)).store req =
        { request with
          response := some (answer config handler req head) } := by
    simp [writeHead, write, setResponse, took.stored]
  have isSeen :
      (taken.writeHead req (answer config handler req head)).seen =
        log ++ [.wrote (.head req (answer config handler req head))] := by
    simp [writeHead, took.seen]
  cases goes : goesOn config handler req head with
  | true =>
      refine
        { requests := took.requests
          parsing := took.parsing
          nextId := took.nextId
          processed := took.processed
          stored := isStored
          seen := isSeen
          timer := took.timer
          stays := fun _ => ?_
          ends := fun ends => by simp [goes] at ends }
      rw [goes]
      exact
        { sameConfig := took.sameConfig
          closing := took.closing
          stopping := fun _ => took.stopping.trans (isLast_of_goesOn goes)
          canRead := took.canRead
          timer := took.timer }
  | false =>
      obtain ⟨requests, parsing, nextId, processed, store, idleTimer, sameSeen⟩ :=
        startClosing_keeps
          (taken.writeHead req (answer config handler req head)) req
      have timer :
          HasTimer config
            ((taken.writeHead req (answer config handler req head)).startClosing req) := by
        unfold HasTimer
        rw [idleTimer]
        exact took.timer
      simp only [Bool.false_eq_true, ↓reduceIte]
      refine
        { requests := requests.trans took.requests
          parsing := parsing.trans took.parsing
          nextId := nextId.trans took.nextId
          processed := processed.trans took.processed
          stored := by rw [store, isStored]
          seen := sameSeen.trans isSeen
          timer := timer
          stays := fun early => ?_
          ends := fun _ isDone => ?_ }
      · have unfinished : request.isDone = false := by simpa [goes] using early
        have goesOnReading :
            (taken.writeHead req (answer config handler req head)).startClosing req =
              { taken.writeHead req (answer config handler req head) with
                closing := true } := by
          unfold startClosing
          simp [isStored, unfinished]
        rw [goes]
        refine ⟨?_, ?_, by simp, ?_, timer⟩ <;> rw [goesOnReading]
        · exact took.sameConfig
        · rfl
        · exact took.canRead
      · have received : request.isDone = true := by simpa using isDone
        unfold startClosing
        simp [isStored, received, readIgnore]

/-- The only request has been answered, and it has left the connection. -/
structure Dispatched
    (config : ConnectionConfig)
    (handler : Handler)
    (early : Bool)
    (next : ServerConnection)
    (req : Nat)
    (head : RequestHead)
    (request : ServerRequest)
    (log : List Sight) : Prop where
  requests : next.requests = []
  parsing : next.parsing = none
  nextId : next.nextId = req + 1
  processed : next.requestsProcessed = req + 1
  stored :
    next.store req =
      { request with
        connection := false
        response := some (answer config handler req head) }
  seen : next.seen = log
  timer : HasTimer config next
  stays :
    goesOn config handler req head = true ∨ early = true →
    Working config (!goesOn config handler req head) next
  ends :
    goesOn config handler req head = false →
    early = false →
    next.closing = true ∧ next.stream.ignoring = true

section Finishing

variable {early : Bool}
variable {now : ServerConnection}
variable {req : Nat}
variable {head : RequestHead}
variable {request : ServerRequest}
variable {log : List Sight}
variable {rest : List Frame}
variable {goal : Config → Prop}

/-- The request is taken out, and its finish event is dispatched. -/
theorem Wrote.cleaned
    (wrote : Wrote config handler early now req head request log)
    (isDone : request.isDone = true) :
    Dispatched config handler early
      ((now.cleanupRequest req []).emit (.fired (.finishEvent req)))
      req head request log := by
  refine
    { requests := rfl
      parsing := ?_
      nextId := wrote.nextId
      processed := wrote.processed
      stored := ?_
      seen := ?_
      timer := wrote.timer
      stays := fun goes => ?_
      ends := wrote.ends }
  · exact wrote.parsing.trans (by simp [isDone])
  · simp [cleanupRequest, emit, setRequest, wrote.stored]
  · simp [sight?, wrote.seen]
  · obtain ⟨sameConfig, closing, stopping, reads, timer⟩ := wrote.stays goes
    exact ⟨sameConfig, closing, stopping, reads, timer⟩

/-- After the finish event the connection waits, or it is shut down. -/
theorem Dispatched.returns
    (dispatched : Dispatched config handler early now req head request log)
    (crashes : ∀ next, Crashed config next → goal next)
    (goes :
      ∀ next,
        Dispatched config handler early next req head request
          (log ++ ending config handler req head) →
        Goes handler next rest goal) :
    Goes handler now (.finishReturn :: rest) goal := by
  cases on : goesOn config handler req head with
  | true =>
      have working := dispatched.stays (Or.inl on)
      have isOpen : now.closing = false := by
        rw [working.closing, on]
        rfl
      have notStopping : now.stopping = false := working.stopping (by simp [on])
      have returns : now.finishReturn = now.checkIfIdle := by
        simp [finishReturn, isOpen, notStopping, dispatched.requests]
      rcases checkIfIdle_timer now with ⟨timer, idles, same⟩ | ⟨fails, noTimer⟩
      · have hasTimer : HasTimer config { now with idleTimer := timer } :=
          fun none => working.timer (same none)
        refine .tick rfl (returns.trans idles) (goes _ ?_)
        exact
          { dispatched with
            seen := by
              rw [ending, if_pos on, List.append_nil]
              exact dispatched.seen
            timer := hasTimer
            stays := fun _ => { working with timer := hasTimer } }
      · exact .fault rfl (returns.trans fails) (crashes _ ⟨rfl, working.timer noTimer⟩)
  | false =>
      have closing : now.closing = true := by
        cases early with
        | true =>
            simp [(dispatched.stays (Or.inr rfl)).closing, on]
        | false =>
            exact (dispatched.ends on rfl).1
      have returns : now.finishReturn = now.doClose none true := by
        simp [finishReturn, closing, dispatched.requests]
      have drops :
          ∀ next : ServerConnection,
            next.requests = [] →
            next.dropRequests none (.doClose true) = .next next [] := by
        intro next empty
        simp [dropRequests, empty]
      refine .tick rfl returns (.tick rfl (drops _ dispatched.requests)
        (goes _ ?_))
      refine
        { dispatched with
          seen := ?_
          stays := fun reads => ?_ }
      · rw [← dispatched.seen]
        simp [emit, ServerConnection.seen, sight?, ending, on]
      · obtain ⟨sameConfig, closing, stopping, reads, timer⟩ := dispatched.stays reads
        exact ⟨sameConfig, closing, stopping, reads, timer⟩

/-- The answered request leaves, and the connection waits or closes. -/
theorem Wrote.finish
    (wrote : Wrote config handler early now req head request log)
    (whole : handler.Whole)
    (isDone : request.isDone = true)
    (crashes : ∀ next, Crashed config next → goal next)
    (goes :
      ∀ next,
        Dispatched config handler early next req head request
          (log ++ ending config handler req head) →
        Goes handler next rest goal) :
    Goes handler now (.finishRequest :: rest) goal := by
  have completed : (now.store req).responseCompleted = true := by
    simp [ServerRequest.responseCompleted, wrote.stored,
      answer_completed whole]
  have doneNow : (now.store req).isDone = true := by
    rw [wrote.stored]
    exact isDone
  have finishes :
      code .finishRequest now =
        .next (now.cleanupRequest req [])
          [.fire (.finishEvent req), .finishReturn] := by
    simp [code, finishRequest, wrote.requests, completed, doneNow]
  exact .tick rfl finishes
    (.fire (fun _ => rfl) ((wrote.cleaned isDone).returns crashes goes))

/-- The end of the request is awaited before it is finished. -/
theorem Wrote.defer
    (wrote : Wrote config handler true now req head request log)
    (whole : handler.Whole)
    (unfinished : request.isDone = false)
    (goes :
      ∀ next,
        WorksOn config (!goesOn config handler req head) next req (req + 1)
          { request with
            response := some (answer config handler req head)
            finishOnReceive := true } →
        next.seen = log →
        Goes handler next rest goal) :
    Goes handler now (.finishRequest :: rest) goal := by
  have completed : (now.store req).responseCompleted = true := by
    simp [ServerRequest.responseCompleted, wrote.stored,
      answer_completed whole]
  have unfinishedNow : (now.store req).isDone = false := by
    rw [wrote.stored]
    exact unfinished
  have defers :
      now.finishRequest =
        .next
          (now.setRequest req { now.store req with finishOnReceive := true })
          [] := by
    simp [finishRequest, wrote.requests, completed, unfinishedNow]
  refine .tick rfl defers (goes _ ?_ wrote.seen)
  obtain ⟨sameConfig, closing, stopping, reads, timer⟩ := wrote.stays (Or.inr rfl)
  exact
    { working := ⟨sameConfig, closing, stopping, reads, timer⟩
      requests := wrote.requests
      parsing := wrote.parsing
      nextId := wrote.nextId
      processed := wrote.processed
      stored := by simp [wrote.stored] }

/-- The application answers the only request, whose response is then written. -/
theorem WorksOn.answers
    {c : ServerConnection}
    {callback : Callback}
    (works : WorksOn config false c req req request)
    (whole : handler.Whole)
    (attached : request.connection = true)
    (unanswered : request.response = none)
    (isHead : request.head = some head)
    (answers : c.answersIn handler callback = some req)
    (goes :
      ∀ now,
        Wrote config handler (!request.isDone) now req head request
          (c.seen ++
            [.wrote (.head req (answer config handler req head))]) →
        Goes handler now (.finishRequest :: .callback callback :: rest)
          goal) :
    Goes handler c (.callback callback :: rest) goal := by
  have headers : (c.store req).headers = head := by
    simp [ServerRequest.headers, works.stored, isHead]
  have responds :
      c.requestRespond req (handler.response req (c.store req).headers) =
        .next (c.takeResponse req (handler.response req head))
          [.writeNextResponse] := by
    rw [headers]
    exact requestRespond_first works attached unanswered
  have took :
      Taken config (c.takeResponse req (handler.response req head)) req
        { request with response := some (accepted config handler req head) }
        c.seen :=
    works.taken head
  have takenHeaders :
      ((c.takeResponse req (handler.response req head)).store req).headers =
        head := by
    simp [took.stored, ServerRequest.headers, isHead]
  have prepares :
      (c.takeResponse req (handler.response req head)).prepared
          (accepted config handler req head) =
        answer config handler req head := by
    rw [prepared, took.sameConfig, answer]
  have writes :=
    writeNextResponse_first took.requests (by rw [took.stored]) prepares
      (answer_completed whole req head)
  rw [takenHeaders] at writes
  refine .respond answers ?_ responds (.tick rfl writes (goes _ ?_))
  · rw [headers]
    exact whole.fresh req head
  · have wrote : Wrote config handler _ _ req head _ _ := took.wrote
    exact { wrote with stored := wrote.stored }

end Finishing

end Answering

/-! ## Reading -/

section Reading

variable {config : ConnectionConfig}
variable {handler : Handler}
variable {adrift : Bool}
variable {c : ServerConnection}
variable {req : Nat}

/-- A report on the next request. -/
theorem Rests.parse
    (rests : Rests config adrift c req)
    (result : Parsed) :
    (c.parseRequest result).2 = req ∧
      WorksOn config adrift (c.parseRequest result).1 req req
        { connection := true
          isDone := result.isDone
          head := result.head? } ∧
      (c.parseRequest result).1.seen = c.seen := by
  obtain ⟨sameConfig, closing, stopping, reads, timer⟩ := rests.working
  have shape : (c.parseRequest result).2 = req := by
    simp [parseRequest, parseShift, stopIdleTimer, rests.parsing, newRequest,
      rests.nextId]
  refine ⟨shape, ⟨⟨?_, ?_, ?_, ?_, ?_⟩, ?_, ?_, ?_, ?_, ?_⟩, ?_⟩ <;>
    simp_all [parseRequest, parseShift, stopIdleTimer, rests.parsing,
      newRequest, rests.nextId, rests.requests, append, setRequest, canRead,
      rests.processed, seen, sight?, HasTimer]

/-- A report on the request that the connection works on. -/
theorem WorksOn.parse
    {processed : Nat}
    {request : ServerRequest}
    (works : WorksOn config adrift c req processed request)
    (unfinished : request.isDone = false)
    (result : Parsed) :
    (c.parseRequest result).2 = req ∧
      WorksOn config adrift (c.parseRequest result).1 req processed
        { request with
          isDone := result.isDone
          head := request.head.or result.head? } ∧
      (c.parseRequest result).1.seen = c.seen := by
  obtain ⟨sameConfig, closing, stopping, reads, timer⟩ := works.working
  have parsing : c.parsing = some req := by
    simpa [unfinished] using works.parsing
  have shape : (c.parseRequest result).2 = req := by
    simp [parseRequest, parseShift, stopIdleTimer, parsing]
  refine ⟨shape, ⟨⟨?_, ?_, ?_, ?_, ?_⟩, ?_, ?_, ?_, ?_, ?_⟩, ?_⟩ <;>
    simp_all [parseRequest, parseShift, stopIdleTimer, works.requests,
      setRequest, canRead, works.processed, works.nextId, works.stored, seen,
      HasTimer]

/-- A report on a request whose headers are finished. -/
theorem onReadLoop_routes
    {processed : Nat}
    {request : ServerRequest}
    {result : Parsed}
    {buf : List Parsed}
    (isReq : (c.parseRequest result).2 = req)
    (works :
      WorksOn config adrift (c.parseRequest result).1 req processed request)
    (isHead : result.head?.isSome = true) :
    c.onReadLoop (result :: buf) =
      if request.routed then
        .next (c.parseRequest result).1
          [.routed req result.isDone (if result.isDone then buf else [])]
      else
        .next
          ((c.parseRequest result).1.setRequest req
            { request with routed := true })
          [.fire (.routeEvent req),
            .routed req result.isDone
              (if result.isDone then buf else [])] := by
  cases result with
  | headers | error _ =>
      simp [Parsed.head?] at isHead
  | body head | done head =>
      simp only [onReadLoop, isReq, works.requests, List.length_cons,
        List.length_nil, Nat.zero_add, Nat.lt_irrefl, false_and, ↓reduceIte,
        works.stored]

/-- The connection goes on, or it is at the end of its work, or of what is followed here. -/
inductive Leaves
    (config : ConnectionConfig)
    (handler : Handler)
    (total : List Sight)
    (strays : Bool)
    (reports buf : List Parsed)
    (next : Config) : Prop where
  | crashed :
      Crashed config next →
      Leaves config handler total strays reports buf next
  | strayed :
      Strayed total strays next →
      Leaves config handler total strays reports buf next
  | reads :
      next.fault = none →
      next.stack = [.onRead buf] →
      next.state.canRead = true →
      Accounted config handler total strays next.state reports →
      Leaves config handler total strays reports buf next
  | rests :
      next.fault = none →
      next.stack = [] →
      buf = [] ∨ next.state.canRead = false →
      Accounted config handler total strays next.state reports →
      Leaves config handler total strays reports buf next

variable {head : RequestHead}
variable {reports buf : List Parsed}
variable {total : List Sight}
variable {strays : Bool}
variable {request : ServerRequest}

/-- The parse loop after a request that has been answered in its callbacks. -/
theorem Dispatched.received
    {log : List Sight}
    (dispatched : Dispatched config handler false c req head request log)
    (isHead : request.head = some head)
    (direct : request.finishOnReceive = false)
    (completes :
      Completes config handler total strays log (.behind config handler req head)
        reports) :
    Goes handler c [.received req true buf]
      (Leaves config handler total strays reports buf) := by
  have headers : (c.store req).headers = head := by
    simp [ServerRequest.headers, dispatched.stored, isHead]
  have isDirect : (c.store req).finishOnReceive = false := by
    rw [dispatched.stored]
    exact direct
  cases on : goesOn config handler req head with
  | true =>
      have working : Working config false c := by
        simpa [on] using dispatched.stays (Or.inl on)
      have keepAlive : head.keepAlive = true := by
        simp only [goesOn, Bool.and_eq_true] at on
        exact on.2
      have continues : c.received req true buf = .next c [.onRead buf] := by
        simp [ServerConnection.received, isDirect, working.closing, headers,
          keepAlive]
      have rests : Rests config false c (req + 1) :=
        ⟨working, dispatched.requests, dispatched.parsing, dispatched.nextId,
          dispatched.processed⟩
      rw [Stage.behind, if_pos on, ← dispatched.seen] at completes
      exact .tick rfl continues
        (.refl (.reads rfl rfl working.canRead ⟨_, .resting rests, completes⟩))
  | false =>
      obtain ⟨closing, ignoring⟩ := dispatched.ends on rfl
      have stops : c.received req true buf = .next c.readIgnore [] := by
        simp [ServerConnection.received, isDirect, closing]
      have ceased : Ceased config c.readIgnore :=
        ⟨dispatched.requests, rfl, dispatched.timer⟩
      have same : c.readIgnore.seen = log := by
        rw [← dispatched.seen]
        simp [ServerConnection.readIgnore, ServerConnection.seen, sight?]
      have silent : c.readIgnore.canRead = false := by
        simp [canRead, ServerConnection.readIgnore]
      rw [Stage.behind, if_neg (by simp [on]), ← same] at completes
      exact .tick rfl stops
        (.refl (.rests rfl rfl (Or.inr silent) ⟨_, .ceased ceased, completes⟩))

/-- The receiving callbacks of a request that has been answered before. -/
theorem Dispatched.delivered
    {log : List Sight}
    (dispatched : Dispatched config handler false c req head request log)
    (isHead : request.head = some head)
    (direct : request.finishOnReceive = false)
    (plain : request.partialMode = false)
    (completes :
      Completes config handler total strays log (.behind config handler req head)
        reports) :
    Goes handler c [.routed req true buf]
      (Leaves config handler total strays reports buf) := by
  have delivers :
      c.routed req true buf =
        .next c
          [.fire (.receiveEvent req), .fire (.requestEvent req),
            .received req true buf] := by
    simp [routed, dispatched.stored, plain]
  have detached :
      ∀ event,
        ((c.emit (.fired (.receiveEvent req))).emit event).answersIn handler
          (.requestEvent req) = none := by
    intro event
    have isDetached : (c.store req).connection = false := by
      rw [dispatched.stored]
    simp [answersIn, unanswered, emit, isDetached]
  refine .tick rfl delivers (.fire (fun _ => rfl) (.fire detached ?_))
  have dispatchedStill :
      Dispatched config handler false
        ((c.emit (.fired (.receiveEvent req))).emit
          (.fired (.requestEvent req))) req head request log := by
    refine
      { requests := dispatched.requests
        parsing := dispatched.parsing
        nextId := dispatched.nextId
        processed := dispatched.processed
        stored := dispatched.stored
        seen := ?_
        timer := dispatched.timer
        stays := fun on => ?_
        ends := dispatched.ends }
    · simp [sight?, dispatched.seen]
    · obtain ⟨sameConfig, closing, stopping, reads, timer⟩ := dispatched.stays on
      exact ⟨sameConfig, closing, stopping, reads, timer⟩
  exact dispatchedStill.received isHead direct completes

/-- The receiving callbacks of a request that is answered on `request_event`. -/
theorem WorksOn.receive
    (works : WorksOn config false c req req request)
    (whole : handler.Whole)
    (attached : request.connection = true)
    (unanswered : request.response = none)
    (isHead : request.head = some head)
    (isDone : request.isDone = true)
    (direct : request.finishOnReceive = false)
    (plain : request.partialMode = false)
    (completes :
      Completes config handler total strays
        (c.seen ++
          .wrote (.head req (answer config handler req head)) ::
            ending config handler req head)
        (.behind config handler req head) reports) :
    Goes handler c [.routed req true buf]
      (Leaves config handler total strays reports buf) := by
  have delivers :
      c.routed req true buf =
        .next c
          [.fire (.receiveEvent req), .fire (.requestEvent req),
            .received req true buf] := by
    simp [routed, works.stored, plain]
  refine .tick rfl delivers (.fire (fun _ => rfl) (.tick rfl rfl ?_))
  have worksStill :
      WorksOn config false
        ((c.emit (.fired (.receiveEvent req))).emit
          (.fired (.requestEvent req))) req req request := by
    obtain ⟨⟨sameConfig, closing, stopping, reads, timer⟩, requests, parsing,
      nextId, processed, stored⟩ := works
    exact ⟨⟨sameConfig, closing, stopping, reads, timer⟩, requests, parsing,
      nextId, processed, stored⟩
  have answersNow :
      ((c.emit (.fired (.receiveEvent req))).emit
        (.fired (.requestEvent req))).answersIn handler (.requestEvent req) =
          some req := by
    simp [answersIn, ServerConnection.unanswered, worksStill.stored, attached,
      unanswered]
  refine worksStill.answers whole attached unanswered isHead answersNow ?_
  intro now wrote
  refine wrote.finish whole isDone (fun _ => .crashed) fun next dispatched => .ret ?_ ?_
  · simp [answersIn, ServerConnection.unanswered, dispatched.stored]
  · rw [isDone] at dispatched
    refine dispatched.received isHead direct ?_
    simpa [sight?] using completes

/-- The end of a request that has been answered: the deferred `finish_request`. -/
theorem WorksOn.finishes
    (works :
      WorksOn config (!goesOn config handler req head) c req (req + 1)
        { connection := true
          response := some (answer config handler req head)
          routed := true
          finishOnReceive := true
          isDone := true
          head := some head })
    (whole : handler.Whole)
    (completes :
      Completes config handler total strays
        (c.seen ++ ending config handler req head)
        (.next (!goesOn config handler req head) (req + 1)) reports) :
    Goes handler c [.routed req true buf]
      (Leaves config handler total strays reports buf) := by
  have delivers :
      c.routed req true buf =
        .next c
          [.fire (.receiveEvent req), .fire (.requestEvent req),
            .received req true buf] := by
    simp [routed, works.stored]
  have answeredBefore :
      ∀ event,
        ((c.emit (.fired (.receiveEvent req))).emit event).answersIn handler
          (.requestEvent req) = none := by
    intro event
    have isAnswered : (c.store req).response.isNone = false := by
      rw [works.stored]
      rfl
    simp [answersIn, unanswered, emit, isAnswered]
  refine .tick rfl delivers (.fire (fun _ => rfl) (.fire answeredBefore ?_))
  have seenNow :
      ((c.emit (.fired (.receiveEvent req))).emit
        (.fired (.requestEvent req))).seen = c.seen := by
    simp [sight?]
  have wrote :
      Wrote config handler true
        ((c.emit (.fired (.receiveEvent req))).emit
          (.fired (.requestEvent req))) req head
        { connection := true
          response := some (answer config handler req head)
          routed := true
          finishOnReceive := true
          isDone := true
          head := some head } c.seen := by
    obtain ⟨⟨sameConfig, closing, stopping, reads, timer⟩, requests, parsing,
      nextId, processed, stored⟩ := works
    exact
      { requests := requests
        parsing := parsing
        nextId := nextId
        processed := processed
        stored := stored
        seen := seenNow
        timer := timer
        stays := fun _ => ⟨sameConfig, closing, stopping, reads, timer⟩
        ends := fun _ late => by cases late }
  revert wrote
  generalize
    (c.emit (.fired (.receiveEvent req))).emit
      (.fired (.requestEvent req)) = now
  intro wrote
  have finishesNow :
      now.received req true buf = .next now [.finishRequest, .onRead buf] := by
    have deferred : (now.store req).finishOnReceive = true := by
      rw [wrote.stored]
    simp [ServerConnection.received, deferred]
  refine .tick rfl finishesNow
    (wrote.finish whole rfl (fun _ => .crashed) fun next dispatched => ?_)
  have rests : Rests config (!goesOn config handler req head) next (req + 1) :=
    ⟨dispatched.stays (Or.inr rfl), dispatched.requests, dispatched.parsing,
      dispatched.nextId, dispatched.processed⟩
  rw [← dispatched.seen] at completes
  exact .refl (.reads rfl rfl rests.working.canRead ⟨_, .resting rests, completes⟩)

/-- Nothing is called for a part of a request that has been routed. -/
theorem WorksOn.part
    {processed : Nat}
    {goal : Config → Prop}
    (works : WorksOn config adrift c req processed request)
    (plain : request.partialMode = false)
    (reached : goal ⟨c, [.onRead []], none⟩) :
    Goes handler c [.routed req false []] goal := by
  have passes : c.routed req false [] = .next c [.received req false []] := by
    simp [routed, works.stored, plain]
  exact .tick rfl passes (.tick rfl rfl (.refl reached))

/-- Marking a request as routed, and telling the application. -/
theorem WorksOn.routedTold
    {processed : Nat}
    (works : WorksOn config adrift c req processed request) :
    WorksOn config adrift
      ((c.setRequest req { request with routed := true }).emit
        (.fired (.routeEvent req)))
      req processed { request with routed := true } := by
  obtain ⟨⟨sameConfig, closing, stopping, reads, timer⟩, requests, parsing,
    nextId, sameProcessed, stored⟩ := works
  refine ⟨⟨sameConfig, closing, stopping, reads, timer⟩, requests, parsing,
    nextId, sameProcessed, ?_⟩
  simp [emit, setRequest]

/-- A request is routed at its end, and the application answers it. -/
theorem WorksOn.routeWhole
    (works :
      WorksOn config false c req req
        { connection := true
          routed := true
          isDone := true
          head := some head })
    (whole : handler.Whole)
    (completes :
      Completes config handler total strays
        (c.seen ++
          .wrote (.head req (answer config handler req head)) ::
            ending config handler req head)
        (.behind config handler req head) reports) :
    Goes handler c [.callback (.routeEvent req), .routed req true buf]
      (Leaves config handler total strays reports buf) := by
  cases early : handler.onRoute req head with
  | true =>
      have answersNow :
          c.answersIn handler (.routeEvent req) = some req := by
        simp [answersIn, unanswered, works.stored, ServerRequest.headers,
          early]
      refine works.answers whole rfl rfl rfl answersNow fun next wrote => ?_
      refine wrote.finish whole rfl (fun _ => .crashed) fun next dispatched =>
        .ret ?_ ?_
      · simp [answersIn, unanswered, dispatched.stored]
      · refine dispatched.delivered rfl rfl rfl ?_
        simpa using completes
  | false =>
      have silent : c.answersIn handler (.routeEvent req) = none := by
        simp [answersIn, works.stored, ServerRequest.headers, early]
      exact .ret silent (works.receive whole rfl rfl rfl rfl rfl rfl completes)

/-- A request is routed before its end, and the application may answer it at once. -/
theorem WorksOn.routeEarly
    (works :
      WorksOn config false c req req
        { connection := true
          routed := true
          head := some head })
    (whole : handler.Whole)
    (completes :
      Completes config handler total strays
        (c.seen ++
          if handler.onRoute req head then
            [.wrote (.head req (answer config handler req head))]
          else
            [])
        (if handler.onRoute req head then .answered req head else .routed req head)
        reports) :
    Goes handler c [.callback (.routeEvent req), .routed req false []]
      (Leaves config handler total strays reports []) := by
  cases early : handler.onRoute req head with
  | true =>
      have answersNow :
          c.answersIn handler (.routeEvent req) = some req := by
        simp [answersIn, unanswered, works.stored, ServerRequest.headers,
          early]
      simp only [early, ↓reduceIte] at completes
      refine works.answers whole rfl rfl rfl answersNow fun next wrote => ?_
      refine wrote.defer whole rfl fun next worksNow isSeen => .ret ?_ ?_
      · simp [answersIn, unanswered, worksNow.stored]
      · rw [← isSeen] at completes
        exact worksNow.part rfl
          (.reads rfl rfl worksNow.working.canRead ⟨_, .answered worksNow, completes⟩)
  | false =>
      have silent : c.answersIn handler (.routeEvent req) = none := by
        simp [answersIn, works.stored, ServerRequest.headers, early]
      simp only [early, Bool.false_eq_true, ↓reduceIte, List.append_nil] at completes
      exact .ret silent (works.part rfl
        (.reads rfl rfl works.working.canRead ⟨_, .routed works, completes⟩))

theorem onReadLoop_headers (c : ServerConnection) (buf : List Parsed) :
    c.onReadLoop (.headers :: buf) =
      .next (c.parseRequest .headers).1 [] :=
  rfl

/-- The headers of a request are not there yet. -/
theorem Phase.headers
    {stage : Stage}
    (phase : Phase config handler (c.parseRequest .headers).1 stage)
    (same : (c.parseRequest .headers).1.seen = c.seen)
    (reported : stage.report config handler .headers = (stage, []))
    (completes :
      Completes config handler total strays c.seen stage (.headers :: reports)) :
    Goes handler c [.onRead [.headers]]
      (Leaves config handler total strays reports []) := by
  have onwards := completes.step (by cases stage <;> simp [Stage.isStray, Parsed.head?])
  rw [reported, List.append_nil, ← same] at onwards
  exact .tick rfl (onReadLoop_headers c [])
    (.refl (.rests rfl rfl (Or.inl rfl) ⟨_, phase, onwards⟩))

/-- A report on a request that has not been routed. -/
theorem WorksOn.report
    {result : Parsed}
    (works :
      WorksOn config adrift (c.parseRequest result).1 req req
        { connection := true
          isDone := result.isDone
          head := result.head? })
    (isReq : (c.parseRequest result).2 = req)
    (same : (c.parseRequest result).1.seen = c.seen)
    (whole : handler.Whole)
    (alone : result.isDone = true ∨ buf = [])
    (completes :
      Completes config handler total strays c.seen (.next adrift req)
        (result :: reports)) :
    Goes handler c [.onRead (result :: buf)]
      (Leaves config handler total strays reports buf) := by
  have told :
      ∀ event,
        (((c.parseRequest result).1.setRequest req
          { connection := true
            routed := true
            isDone := result.isDone
            head := result.head? }).emit event).seen =
          c.seen ++ (sight? event).toList := by
    intro event
    rw [seen_emit, seen_setRequest, same]
  cases result with
  | headers =>
      obtain rfl := alone.resolve_left (by simp [Parsed.isDone])
      exact Phase.headers (.receiving works) same (by cases adrift <;> rfl) completes
  | error error =>
      exact absurd List.mem_cons_self (completes.sound error)
  | body head =>
      obtain rfl := alone.resolve_left (by simp [Parsed.isDone])
      refine .tick rfl (onReadLoop_routes isReq works rfl) (.tick rfl rfl ?_)
      cases adrift with
      | true =>
          refine .refl (.strayed ⟨completes.strays.symm.trans rfl, ?_⟩)
          rw [← completes.sights]
          simp [told, Stage.sights, Stage.report, sight?]
      | false =>
          refine works.routedTold.routeEarly whole ?_
          have onwards := completes.step rfl
          rw [told]
          simp only [Stage.report] at onwards
          split at onwards <;> simp_all [sight?]
  | done head =>
      refine .tick rfl (onReadLoop_routes isReq works rfl) (.tick rfl rfl ?_)
      cases adrift with
      | true =>
          refine .refl (.strayed ⟨completes.strays.symm.trans rfl, ?_⟩)
          rw [← completes.sights]
          simp [told, Stage.sights, Stage.report, sight?]
      | false =>
          refine works.routedTold.routeWhole whole ?_
          have onwards := completes.step rfl
          rw [told]
          simpa [Stage.report, sight?] using onwards

/-- One report is worked off. -/
theorem Phase.report
    {stage : Stage}
    {result : Parsed}
    (phase : Phase config handler c stage)
    (whole : handler.Whole)
    (reads : c.canRead = true)
    (alone : result.isDone = true ∨ buf = [])
    (completes :
      Completes config handler total strays c.seen stage (result :: reports)) :
    Goes handler c [.onRead (result :: buf)]
      (Leaves config handler total strays reports buf) := by
  cases phase with
  | ceased ceased =>
      simp [canRead, ceased.ignoring] at reads
  | resting rests =>
      obtain ⟨isReq, works, same⟩ := rests.parse result
      exact works.report isReq same whole alone completes
  | receiving works =>
      obtain ⟨isReq, parsed, same⟩ := works.parse rfl result
      exact WorksOn.report parsed isReq same whole alone completes
  | routed works =>
      obtain ⟨isReq, parsed, same⟩ := works.parse rfl result
      have onwards := completes.step rfl
      rw [← same] at onwards
      cases result with
      | headers =>
          obtain rfl := alone.resolve_left (by simp [Parsed.isDone])
          exact Phase.headers (.routed parsed) same rfl completes
      | error error =>
          exact absurd List.mem_cons_self (completes.sound error)
      | body head =>
          obtain rfl := alone.resolve_left (by simp [Parsed.isDone])
          refine .tick rfl (onReadLoop_routes isReq parsed rfl) (parsed.part rfl
            (.reads rfl rfl parsed.working.canRead ⟨_, .routed parsed, ?_⟩))
          simpa [Stage.report] using onwards
      | done head =>
          exact .tick rfl (onReadLoop_routes isReq parsed rfl)
            (parsed.receive whole rfl rfl rfl rfl rfl rfl onwards)
  | answered works =>
      obtain ⟨isReq, parsed, same⟩ := works.parse rfl result
      have onwards := completes.step rfl
      rw [← same] at onwards
      cases result with
      | headers =>
          obtain rfl := alone.resolve_left (by simp [Parsed.isDone])
          exact Phase.headers (.answered parsed) same rfl completes
      | error error =>
          exact absurd List.mem_cons_self (completes.sound error)
      | body head =>
          obtain rfl := alone.resolve_left (by simp [Parsed.isDone])
          refine .tick rfl (onReadLoop_routes isReq parsed rfl) (parsed.part rfl
            (.reads rfl rfl parsed.working.canRead ⟨_, .answered parsed, ?_⟩))
          simpa [Stage.report] using onwards
      | done head =>
          exact .tick rfl (onReadLoop_routes isReq parsed rfl)
            (parsed.finishes whole onwards)

/-- Nothing more is reported to a connection that reads no more. -/
theorem Accounted.ceases
    {earlier : List Parsed}
    (accounted : Accounted config handler total strays c earlier)
    (silent : c.canRead = false)
    (sound : NoErrors reports) :
    Accounted config handler total strays c reports := by
  obtain ⟨stage, phase, completes⟩ := accounted
  cases phase with
  | ceased ceased =>
      have sights := completes.sights
      have isStrays := completes.strays
      rw [ceased_sights] at sights
      rw [ceased_strays] at isStrays
      exact ⟨_, .ceased ceased, sound, by rwa [ceased_sights], by rwa [ceased_strays]⟩
  | resting rests =>
      simp [rests.working.canRead] at silent
  | receiving works | routed works | answered works =>
      simp [works.working.canRead] at silent

/-- A buffer is worked off, or the run is not followed on. -/
theorem Accounted.buffer
    (accounted : Accounted config handler total strays c (buf ++ reports))
    (whole : handler.Whole)
    (reads : c.canRead = true)
    (consumed : Consumed buf) :
    Goes handler c [.onRead buf] fun next =>
      Crashed config next ∨ Strayed total strays next ∨
        next.fault = none ∧ next.stack = [] ∧
          Accounted config handler total strays next.state reports := by
  induction buf generalizing c with
  | nil =>
      exact .tick rfl rfl (.refl (Or.inr (Or.inr ⟨rfl, rfl, accounted⟩)))
  | cons result buf inductionHypothesis =>
      obtain ⟨stage, phase, completes⟩ := accounted
      have alone : result.isDone = true ∨ buf = [] := by
        cases buf with
        | nil =>
            exact Or.inr rfl
        | cons next others =>
            exact Or.inl (List.isChain_cons_cons.mp consumed).1
      have soundRest : NoErrors reports :=
        fun error member => completes.sound error
          (List.mem_cons_of_mem _ (List.mem_append_right _ member))
      have worked : Goes handler c [.onRead (result :: buf)]
          (Leaves config handler total strays (buf ++ reports) buf) :=
        phase.report whole reads alone completes
      refine worked.trans fun next leaves => ?_
      obtain ⟨state, stack, fault⟩ := next
      cases leaves with
      | crashed crashed =>
          exact .refl (Or.inl crashed)
      | strayed strayed =>
          exact .refl (Or.inr (Or.inl strayed))
      | reads noFault isStack readsOn accountedNext =>
          cases noFault
          cases isStack
          exact inductionHypothesis accountedNext readsOn consumed.of_cons
      | rests noFault isStack ends accountedNext =>
          refine .refl (Or.inr (Or.inr ⟨noFault, isStack, ?_⟩))
          rcases ends with rfl | silent
          · exact accountedNext
          · exact accountedNext.ceases silent soundRest

/-- The phases do not depend on the writes and on the state of the timer. -/
theorem Phase.idles
    {stage : Stage}
    (phase : Phase config handler c stage)
    (count : Nat)
    (timer : Option Bool)
    (hasTimer : timer = none → config.idleTimeout = 0) :
    Phase config handler
      { c with
        stream := { c.stream with writeQueue := count }
        idleTimer := timer }
      stage := by
  have stillWorking :
      ∀ {adrift},
        Working config adrift c →
        Working config adrift
          { c with
            stream := { c.stream with writeQueue := count }
            idleTimer := timer } :=
    fun working =>
      { sameConfig := working.sameConfig
        closing := working.closing
        stopping := working.stopping
        canRead := working.canRead
        timer := hasTimer }
  cases phase with
  | resting rests =>
      exact .resting { rests with working := stillWorking rests.working }
  | receiving works =>
      exact .receiving { works with working := stillWorking works.working }
  | routed works =>
      exact .routed { works with working := stillWorking works.working }
  | answered works =>
      exact .answered { works with working := stillWorking works.working }
  | ceased ceased =>
      exact .ceased { ceased with timer := hasTimer }

theorem Phase.hasTimer
    {stage : Stage}
    (phase : Phase config handler c stage) :
    HasTimer config c := by
  cases phase with
  | resting rests =>
      exact rests.working.timer
  | receiving works | routed works | answered works =>
      exact works.working.timer
  | ceased ceased =>
      exact ceased.timer

/-- The completion of a write starts the idle timer at most. -/
theorem Accounted.written
    (accounted : Accounted config handler total strays c reports)
    (count : Nat) :
    (∃ next : ServerConnection,
      { c with stream := { c.stream with writeQueue := count } }.onWrite none =
          .next next [] ∧
        Accounted config handler total strays next reports) ∨
      { c with stream := { c.stream with writeQueue := count } }.onWrite none =
          .fault .nullIdleTimer ∧
        config.idleTimeout = 0 := by
  obtain ⟨stage, phase, completes⟩ := accounted
  rcases checkIfIdle_timer { c with stream := { c.stream with writeQueue := count } } with
    ⟨timer, idles, same⟩ | ⟨fails, noTimer⟩
  · exact Or.inl ⟨_, idles, stage,
      phase.idles count timer fun none => phase.hasTimer (same none), completes⟩
  · exact Or.inr ⟨fails, phase.hasTimer noTimer⟩

/-! ## Whole runs -/

theorem of_isDelivery
    {label : Label}
    (delivery : isDelivery label = true) :
    (∃ buf, label = .input (.onRead buf)) ∨ label = .input (.onWrite none) := by
  unfold isDelivery at delivery
  split at delivery
  · exact Or.inl ⟨_, rfl⟩
  · exact Or.inr rfl
  · cases delivery

/-- The loop delivers a buffer while the stream is read. -/
theorem step?_onRead
    {c : ServerConnection}
    {buf : List Parsed}
    {next : Config}
    (stepped :
      machine.step? ⟨c, [], none⟩ (.input (.onRead buf)) = some next) :
    c.canRead = true ∧ next = ⟨c, [.onRead buf], none⟩ := by
  cases reads : c.canRead with
  | false =>
      simp [CallMachine.Machine.step?, CallMachine.Machine.atBoundary, machine,
        accept, reads] at stepped
  | true =>
      simp [CallMachine.Machine.step?, CallMachine.Machine.atBoundary, machine,
        accept, reads, CallMachine.Machine.resume] at stepped
      exact ⟨rfl, stepped.symm⟩

/-- The loop completes a write. -/
theorem step?_onWrite
    {c : ServerConnection}
    {next : Config}
    (stepped :
      machine.step? ⟨c, [], none⟩ (.input (.onWrite none)) = some next) :
    next =
      machine.resume ⟨c, [], none⟩ []
        ({ c with
          stream :=
            { c.stream with writeQueue := c.stream.writeQueue - 1 } }.onWrite
          none) := by
  cases CallMachine.Machine.steps_of_step? stepped with
  | input boundary accepted =>
      change
        (if c.stream.listener && decide (0 < c.stream.writeQueue) then _
          else none) = some _ at accepted
      split at accepted
      · simp only [Option.some.injEq] at accepted
        rw [← accepted]
      · cases accepted

/-- What has been seen stays. -/
theorem seen_prefix_of_run
    {config final : Config}
    {labels : List Label}
    (ran : machine.run? config labels = some final) :
    config.state.seen <+: final.state.seen := by
  have preserved :
      machine.Preserves (fun _ _ => True) fun c _ =>
        Grows (fun _ => true) config.state.trace c.trace := by
    apply preserves_of
    · intro frame rest c next frames _ _ grows executed
      exact grows.trans ((code_emits executed).imp fun _ _ => rfl)
    · intro callback rest c grows
      exact grows
    · intro input stack c next frames _ _ grows accepted
      exact grows.trans ((accept_emits accepted).imp fun _ _ => rfl)
    · intro stack c exception _ grows
      exact grows.trans (.snoc _ rfl)
  obtain ⟨events, shape, _⟩ :=
    preserved.run (Grows.refl _) (CallMachine.Machine.guarded_true machine config labels) ran
  refine ⟨events.filterMap sight?, ?_⟩
  simp [seen, shape, List.filterMap_append]

/-- A failed run does not go on. -/
theorem eq_of_crashed
    {next final : Config}
    {labels : List Label}
    (crashed : Crashed config next)
    (ran : machine.run? next labels = some final) :
    final = next := by
  cases labels with
  | nil =>
      exact (Option.some.inj ran).symm
  | cons label rest =>
      simp [CallMachine.Machine.run?, CallMachine.Machine.step?, crashed.1] at ran

/-- What a run comes to. -/
inductive Ends
    (config : ConnectionConfig)
    (handler : Handler)
    (total : List Sight)
    (strays : Bool)
    (reports : List Parsed)
    (final : Config) : Prop where
  | running :
      final.fault = none →
      final.stack ≠ [] →
      Ends config handler total strays reports final
  | crashed :
      Crashed config final →
      Ends config handler total strays reports final
  | strayed :
      Strayed total strays final →
      Ends config handler total strays reports final
  | rests :
      final.fault = none →
      final.stack = [] →
      Accounted config handler total strays final.state reports →
      Ends config handler total strays reports final

/-- A whole run, from a state in which nothing runs. -/
theorem Accounted.run
    (whole : handler.Whole)
    (count : Nat)
    {labels : List Label}
    (short : labels.length ≤ count)
    {later : List (List Parsed)}
    {final : Config}
    (accounted :
      Accounted config handler total strays c (buffers labels ++ later).flatten)
    (consumed : ∀ buf ∈ buffers labels, Consumed buf)
    (obeys : machine.Guarded (Obeys handler) ⟨c, [], none⟩ labels)
    (ran : machine.run? ⟨c, [], none⟩ labels = some final) :
    Ends config handler total strays later.flatten final := by
  induction count generalizing c labels with
  | zero =>
      obtain rfl : labels = [] := List.length_eq_zero_iff.mp (by omega)
      simp only [CallMachine.Machine.run?, Option.some.injEq] at ran
      subst final
      exact .rests rfl rfl accounted
  | succ count inductionHypothesis =>
      cases labels with
      | nil =>
          simp only [CallMachine.Machine.run?, Option.some.injEq] at ran
          subst final
          exact .rests rfl rfl accounted
      | cons label rest =>
          unfold CallMachine.Machine.run? at ran
          cases stepped : machine.step? ⟨c, [], none⟩ label with
          | none =>
              simp [stepped] at ran
          | some next =>
              simp only [stepped] at ran
              have obeysRest := obeys.2 next stepped
              have shorter : rest.length ≤ count := by
                simp only [List.length_cons] at short
                omega
              rcases of_isDelivery (obeys.1.2 rfl) with ⟨buf, rfl⟩ | rfl
              · obtain ⟨reads, rfl⟩ := step?_onRead stepped
                have isConsumed : Consumed buf :=
                  consumed buf (by simp [buffers, buffer?])
                have accountedBuf :
                    Accounted config handler total strays c
                      (buf ++ (buffers rest ++ later).flatten) := by
                  simpa [buffers, buffer?] using accounted
                rcases accountedBuf.buffer whole reads isConsumed rest final
                    obeysRest ran with
                  ⟨noFault, running, _⟩ |
                    ⟨first, second, middle, rfl, silent, ranFirst, reached⟩
                · exact .running noFault running
                · have ranSecond : machine.run? middle second = some final := by
                    rwa [CallMachine.Machine.run?_append, ranFirst] at ran
                  rcases reached with crashed | strayed | ⟨noFault, isStack, accountedNext⟩
                  · obtain rfl := eq_of_crashed crashed ranSecond
                    exact .crashed crashed
                  · exact .strayed
                      ⟨strayed.1, strayed.2.trans (seen_prefix_of_run ranSecond)⟩
                  · obtain ⟨state, stack, fault⟩ := middle
                    cases noFault
                    cases isStack
                    have sameBuffers :
                        buffers (first ++ second) = buffers second := by
                      simp [buffers, List.filterMap_append,
                        List.filterMap_eq_nil_iff.mpr silent]
                    rw [sameBuffers] at accountedNext
                    refine inductionHypothesis ?_ accountedNext ?_
                      (obeysRest.back ranFirst) ranSecond
                    · simp only [List.length_append] at shorter
                      omega
                    · intro other member
                      refine consumed other ?_
                      simpa [buffers, buffer?, List.filterMap_append] using
                        Or.inr (Or.inr member)
              · have isNext := step?_onWrite stepped
                rcases accounted.written (c.stream.writeQueue - 1) with
                  ⟨written, executed, accountedNext⟩ | ⟨fails, noTimer⟩
                · rw [executed] at isNext
                  subst isNext
                  exact inductionHypothesis shorter accountedNext
                    (fun buf member => consumed buf (by
                      simpa [buffers, buffer?] using member))
                    obeysRest ran
                · rw [fails] at isNext
                  subst isNext
                  have crashed : Crashed config ⟨c, [], some .nullIdleTimer⟩ :=
                    ⟨rfl, noTimer⟩
                  obtain rfl := eq_of_crashed crashed ran
                  exact .crashed crashed

end Reading

end UniEventHttp.ServerConnection
