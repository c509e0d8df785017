import UniEventHttp.ServerReceiving

namespace UniEventHttp.ServerConnection

/-!
# What a step of the connection does

Every piece of code and every entry point that goes on without an exception does
one of a few deeds.  An invariant of all runs is proved by looking at each of
them once.
-/

/-- What has caused a step: a frame, or a call or an event from outside. -/
inductive Cause where
  | frame (frame : Frame)
  | input (input : Input)

/-- The label of the step. -/
def Cause.label : Cause → Label
  | .frame _ => .tick
  | .input called => .input called

/-- The part of the stack that the step replaces. -/
def Cause.stack : Cause → List Frame
  | .frame top => [top]
  | .input _ => []

/-- A frame that goes on with the deque when the frames above have returned. -/
def suspends : Frame → Bool
  | .finishReturn => true
  | .dropRequests _ _ => true
  | _ => false

/-- The event loop acts: nothing else runs. -/
def isEvent : Input → Bool
  | .onRead _ => true
  | .onReadError _ => true
  | .onEof => true
  | .onWrite _ => true
  | .onShutdown => true
  | .onConnectionError _ => true
  | .idleTimeout => true
  | _ => false

/-- The machine executes its top frame, or nothing but application code runs. -/
def Cause.Fits : Cause → List Frame → Prop
  | .frame top, _ => isCallback top = false
  | .input called, below =>
      machine.atBoundary below = true ∧ (isEvent called = true → below = [])

/-- What `on_read` does with the request that it has parsed. -/
inductive Admits
    (parsed : ServerConnection)
    (result : Parsed)
    (rest : List Parsed)
    (req : Nat) :
    ServerConnection → List Frame → Prop where
  | error {error : ErrorCode} :
      result = .error error →
      Admits parsed result rest req parsed [.requestError req error]
  | headers :
      result = .headers →
      Admits parsed result rest req parsed []
  /-- An upgrade request in the pipeline. -/
  | refuses :
      result.head?.isSome = true →
      1 < parsed.requests.length →
      (parsed.store req).headers.connection = "upgrade" →
      Admits parsed result rest req parsed
        [.requestError req (.http .upgradeInPipeline), .readIgnore]
  | again :
      result.head?.isSome = true →
      (parsed.store req).routed = true →
      Admits parsed result rest req parsed
        [.routed req result.isDone (if result.isDone then rest else [])]
  | routes :
      result.head?.isSome = true →
      ¬ (1 < parsed.requests.length ∧
        (parsed.store req).headers.connection = "upgrade") →
      (parsed.store req).routed = false →
      Admits parsed result rest req
        (parsed.setRequest req { parsed.store req with routed := true })
        [.fire (.routeEvent req),
          .routed req result.isDone (if result.isDone then rest else [])]

/-- The callbacks for a part of a request, or for a whole one. -/
inductive Delivers (c : ServerConnection) (req : Nat) (done : Bool)
    (buf : List Parsed) : List Frame → Prop where
  | partialMode :
      (c.store req).partialMode = true →
      Delivers c req done buf
        [.fire (.partialEvent req none), .received req done buf]
  | whole :
      (c.store req).partialMode = false →
      done = true →
      Delivers c req done buf
        [.fire (.receiveEvent req), .fire (.requestEvent req),
          .received req done buf]
  | part :
      (c.store req).partialMode = false →
      done = false →
      Delivers c req done buf [.received req done buf]

/-- How the loop of `on_read` goes on. -/
inductive GoesOn (c : ServerConnection) (req : Nat) (buf : List Parsed) :
    Bool → ServerConnection → List Frame → Prop where
  | unfinished : GoesOn c req buf false c [.onRead buf]
  | finishes :
      (c.store req).finishOnReceive = true →
      GoesOn c req buf true c [.finishRequest, .onRead buf]
  | stops :
      (c.store req).finishOnReceive = false →
      c.closing = true ∨ (c.store req).headers.keepAlive = false →
      GoesOn c req buf true c.readIgnore []
  | next :
      (c.store req).finishOnReceive = false →
      c.closing = false →
      (c.store req).headers.keepAlive = true →
      GoesOn c req buf true c [.onRead buf]

/-- A response is given by the application or by `request_error`. -/
inductive Answers (c : ServerConnection) : Cause → Nat → ServerResponse → Prop where
  | call {req : Nat} {response : ServerResponse} :
      response.completed = false →
      Answers c (.input (.respond req response)) req response
  | error {req : Nat} :
      Answers c (.frame (.requestErrorReturn req)) req
        (c.defaultErrorResponse 400)

/-- The response of the request does not keep the connection alive. -/
def SaysClose (c : ServerConnection) (req : Nat) : Prop :=
  ∀ response ∈ (c.store req).response, response.keepAlive = false

/-- `check_if_idle` with a timer. -/
inductive Idles (c : ServerConnection) : ServerConnection → Prop where
  | busy : c.requests ≠ [] → Idles c c
  | already {active : Bool} :
      c.requests = [] →
      c.idleTimer = some active →
      active = true ∨ 0 < c.stream.writeQueue →
      Idles c c
  | arms :
      c.requests = [] →
      c.idleTimer = some false →
      c.stream.writeQueue = 0 →
      Idles c { c with idleTimer := some true }

/-- `do_close` is called on `middle`. -/
inductive Closes (c : ServerConnection) :
    Cause → ServerConnection → Option ErrorCode → Bool → Prop where
  | finish :
      c.closing = true ∨ c.stopping = true →
      c.requests = [] →
      Closes c (.frame .finishReturn) c none true
  | gracefulStop :
      c.requests = [] →
      Closes c (.input .gracefulStop) c (some (.http .serverStopping)) true
  | drop {req : Nat} :
      c.Attached req →
      ¬ c.Completed req →
      Closes c (.input (.drop req)) c (some .operationCanceled) false
  | close (error : Option ErrorCode) :
      Closes c (.input (.close error)) c error false
  | shutdown (error : Option ErrorCode) :
      Closes c (.input (.shutdown error)) c error true
  | eof :
      Closes c (.input .onEof)
        { c with stream := { c.stream with ended := true } }
        (some .connectionReset) true
  | write (error : ErrorCode) :
      Closes c (.input (.onWrite (some error)))
        { c with
          stream := { c.stream with writeQueue := c.stream.writeQueue - 1 } }
        (some error) false
  | connection (error : ErrorCode) :
      Closes c (.input (.onConnectionError error)) c (some error) false
  | idle :
      c.requests = [] →
      Closes c (.input .idleTimeout) { c with idleTimer := some false } none
        false

/-- `drop_requests` tells the application of a request that it has dropped. -/
inductive Notifies (c : ServerConnection) (req : Nat) (error : Option ErrorCode) :
    Callback → Prop where
  | part :
      ¬ c.Done req →
      (c.store req).partialMode = true →
      Notifies c req error (.partialEvent req error)
  | error :
      ¬ c.Done req →
      (c.store req).partialMode = false →
      Notifies c req error (.errorEvent req error)
  | drop :
      c.Done req →
      ¬ c.Completed req →
      Notifies c req error (.dropEvent req error)

/-- A chunk of a response is accepted. -/
inductive SendsChunk (c : ServerConnection) (req : Nat) (data : Data) :
    ServerConnection → Prop where
  | empty : data = [] → SendsChunk c req data (c.emit (.gaveChunk req data))
  | writes {rest : List Nat} :
      data ≠ [] →
      c.requests = req :: rest →
      SendsChunk c req data
        ((c.emit (.gaveChunk req data)).write (.chunk req data))
  | keeps {response : ServerResponse} :
      (c.store req).response = some response →
      SendsChunk c req data
        ((c.emit (.gaveChunk req data)).setResponse req
          { response with body := response.body ++ [data] })

/-- The last chunk of a response is accepted. -/
inductive SendsFinal (c : ServerConnection) (req : Nat) (data : Data) :
    ServerConnection → List Frame → Prop where
  | writes {response : ServerResponse} {rest : List Nat} :
      (c.store req).response = some response →
      c.requests = req :: rest →
      SendsFinal c req data
        (((c.emit (.gaveFinalChunk req data)).setResponse req
          { response with completed := true }).write (.finalChunk req data))
        [.finishRequest]
  | keeps {response : ServerResponse} :
      (c.store req).response = some response →
      SendsFinal c req data
        ((c.emit (.gaveFinalChunk req data)).setResponse req
          { response with completed := true })
        []

/-- What a step does to the connection, and the frames that it calls. -/
inductive Deed (c : ServerConnection) :
    Cause → ServerConnection → List Frame → Prop where
  | rests {cause : Cause} :
      (∀ frame ∈ cause.stack,
        suspends frame = false ∧ ∀ req, frame ≠ .requestErrorReturn req) →
      Deed c cause c []
  /-- `drop_requests` returns to `do_close`. -/
  | dropped {error : Option ErrorCode} :
      c.requests = [] →
      Deed c (.frame (.dropRequests error (.doClose true))) c []
  | fires (callback : Callback) :
      Deed c (.frame (.fire callback)) (c.emit (.fired callback))
        [.callback callback]
  | parses {result : Parsed} {rest : List Parsed} {next : ServerConnection}
      {frames : List Frame} :
      Admits (c.parseRequest result).1 result rest (c.parseRequest result).2
        next frames →
      Deed c (.frame (.onRead (result :: rest))) next frames
  | delivers {req : Nat} {done : Bool} {buf : List Parsed}
      {frames : List Frame} :
      Delivers c req done buf frames →
      Deed c (.frame (.routed req done buf)) c frames
  | goesOn {req : Nat} {done : Bool} {buf : List Parsed}
      {next : ServerConnection} {frames : List Frame} :
      GoesOn c req buf done next frames →
      Deed c (.frame (.received req done buf)) next frames
  /-- `request_error` tells the application. -/
  | reports (req : Nat) (error : ErrorCode) :
      Deed c (.frame (.requestError req error)) c.readIgnore
        [.fire
            (if (c.store req).partialMode then
              .partialEvent req (some error)
            else
              .errorEvent req (some error)),
          .requestErrorReturn req]
  | answers {cause : Cause} {req front : Nat} {rest : List Nat}
      {response : ServerResponse} :
      Answers c cause req response →
      c.Attached req →
      ¬ c.Responded req →
      c.requests = front :: rest →
      Deed c cause (c.takeResponse req response)
        (if front = req then [.writeNextResponse] else [])
  /-- `request_error` turns keep-alive off in the response that it finds. -/
  | marks {req : Nat} {response : ServerResponse} :
      (c.store req).response = some response →
      Deed c (.frame (.requestErrorReturn req))
        (c.setResponse req { response with keepAlive := false }) []
  | ignores : Deed c (.frame .readIgnore) c.readIgnore []
  | writes {req : Nat} {rest : List Nat} {given : ServerResponse}
      {next : ServerConnection} {frames : List Frame} :
      c.requests = req :: rest →
      (c.store req).response = some given →
      WritesResponse c req rest given next frames →
      Deed c (.frame .writeNextResponse) next frames
  /-- `finish_request` waits for the end of the request. -/
  | waits {req : Nat} {rest : List Nat} :
      c.requests = req :: rest →
      c.Completed req →
      ¬ c.Done req →
      Deed c (.frame .finishRequest)
        (c.setRequest req { c.store req with finishOnReceive := true }) []
  | leaves {req : Nat} {rest : List Nat} :
      c.requests = req :: rest →
      c.Completed req →
      c.Done req →
      Deed c (.frame .finishRequest) (c.cleanupRequest req rest)
        [.fire (.finishEvent req), .finishReturn]
  /-- `finish_request` goes on with the next response. -/
  | takesUp {req : Nat} {rest : List Nat} :
      c.closing = false →
      c.stopping = false →
      c.requests = req :: rest →
      c.Responded req →
      Deed c (.frame .finishReturn) c [.writeNextResponse]
  | returns {next : ServerConnection} :
      c.closing = false →
      c.stopping = false →
      (∀ req ∈ c.requests.head?, ¬ c.Responded req) →
      Idles c next →
      Deed c (.frame .finishReturn) next []
  | closes {cause : Cause} {middle next : ServerConnection}
      {error : Option ErrorCode} {soft : Bool} {frames : List Frame} :
      Closes c cause middle error soft →
      middle.doClose error soft = .next next frames →
      Deed c cause next frames
  | pops {error : Option ErrorCode} {returns : DropReturn} {req : Nat}
      {rest : List Nat} :
      c.requests = req :: rest →
      Deed c (.frame (.dropRequests error returns))
        ((c.cleanupRequest req rest).emit (.dropped req error))
        [.fire (.finishEvent req), .dropNotify req error,
          .dropRequests error returns]
  /-- The request that was held is back in the deque, and its response goes on. -/
  | finishesHeld {error : Option ErrorCode} {req : Nat}
      {tmpChunks : List Data} :
      c.requests = [] →
      c.Completed req →
      Deed c (.frame (.dropRequests error (.writeNextResponse req tmpChunks)))
        { c with requests := [req] } [.finishRequest]
  | flushesHeld {error : Option ErrorCode} {req : Nat}
      {tmpChunks : List Data} :
      c.requests = [] →
      ¬ c.Completed req →
      Deed c (.frame (.dropRequests error (.writeNextResponse req tmpChunks)))
        (({ c with requests := [req] } : ServerConnection).writeChunks req
          tmpChunks)
        []
  | notifies {req : Nat} {error : Option ErrorCode} {callback : Callback} :
      Notifies c req error callback →
      Deed c (.frame (.dropNotify req error)) c [.fire callback]
  /-- `server->remove(this)` after `do_close` or `upgrade`. -/
  | removes {frame : Frame} :
      frame = .upgradeReturn ∨
        (∃ error, frame = .dropRequests error (.doClose false)) ∧
          c.requests = [] →
      Deed c (.frame frame) (c.emit .removed) [.callback .stopEvent]
  | shutsDown :
      c.stream.shutdownRequested = true →
      Deed c (.input .onShutdown)
        (({ c.stopIdleTimer with
          stream := { c.stream with listener := false } } :
            ServerConnection).emit .removed)
        [.callback .stopEvent]
  | upgrades {req : Nat} :
      c.Attached req →
      iequals (c.store req).headers.connection "upgrade" = true →
      c.requests = [req] →
      Deed c (.input (.upgrade req))
        ((({ c with
          stream := { c.stream with listener := false }
          idleTimer := none } : ServerConnection).emit
            (.upgraded req)).cleanupRequest req [])
        [.fire (.finishEvent req), .upgradeReturn]
  /-- `graceful_stop` with requests. -/
  | stops :
      c.requests ≠ [] →
      Deed c (.input .gracefulStop) { c with stopping := true } []
  | continues {req : Nat} {rest : List Nat} :
      c.requests = req :: rest →
      ¬ c.Responded req →
      Deed c (.input (.sendContinue req)) (c.write (.continue100 req)) []
  | sendsChunk {req : Nat} {data : Data} {next : ServerConnection} :
      c.Accepts req →
      SendsChunk c req data next →
      Deed c (.input (.sendChunk req data)) next []
  | sendsFinal {req : Nat} {data : Data} {next : ServerConnection}
      {frames : List Frame} :
      c.Accepts req →
      SendsFinal c req data next frames →
      Deed c (.input (.sendFinalChunk req data)) next frames
  | enables (req : Nat) :
      Deed c (.input (.enablePartial req))
        (c.setRequest req { c.store req with partialMode := true }) []
  | receives (buf : List Parsed) :
      ¬ c.Silent →
      Deed c (.input (.onRead buf)) c [.onRead buf]
  | fails {error : ErrorCode} {req : Nat} {next : ServerConnection} :
      ({ c with stream := { c.stream with ended := true } } :
        ServerConnection).onReadError error =
          .next next [.requestError req error] →
      ReadFails { c with stream := { c.stream with ended := true } } next req →
      Deed c (.input (.onReadError error)) next [.requestError req error]
  /-- A write is done. -/
  | written {next : ServerConnection} :
      0 < c.stream.writeQueue →
      c.stream.listener = true →
      Idles
        { c with
          stream := { c.stream with writeQueue := c.stream.writeQueue - 1 } }
        next →
      Deed c (.input (.onWrite none)) next []

/-! ## The code -/

/-- Nothing changes when the response of a request is stored again. -/
theorem setResponse_stored
    {c : ServerConnection}
    {req : Nat}
    {response : ServerResponse}
    (stored : (c.store req).response = some response) :
    c.setResponse req response = c := by
  have same : { c.store req with response := some response } = c.store req := by
    rw [← stored]
  unfold setResponse setRequest
  rw [same, Function.update_eq_self]

theorem onReadLoop_deed
    {c next : ServerConnection}
    {buf : List Parsed}
    {frames : List Frame}
    (executed : c.onReadLoop buf = .next next frames) :
    Deed c (.frame (.onRead buf)) next frames := by
  cases buf with
  | nil =>
      cases executed
      exact .rests (by simp [Cause.stack, suspends])
  | cons result rest =>
      -- both reports that come after the headers take the same way
      have admits :
          ∀ done buf,
            result.head?.isSome = true →
            result.isDone = done →
            (if done then rest else []) = buf →
            (if 1 < (c.parseRequest result).1.requests.length ∧
                ((c.parseRequest result).1.store
                  (c.parseRequest result).2).headers.connection =
                    "upgrade" then
              (.next (c.parseRequest result).1
                [.requestError (c.parseRequest result).2
                  (.http .upgradeInPipeline), .readIgnore] : Step)
            else if ((c.parseRequest result).1.store
                (c.parseRequest result).2).routed then
              .next (c.parseRequest result).1
                [.routed (c.parseRequest result).2 done buf]
            else
              .next
                ((c.parseRequest result).1.setRequest
                  (c.parseRequest result).2
                  { (c.parseRequest result).1.store
                      (c.parseRequest result).2 with
                    routed := true })
                [.fire (.routeEvent (c.parseRequest result).2),
                  .routed (c.parseRequest result).2 done buf]) =
              .next next frames →
            Deed c (.frame (.onRead (result :: rest))) next frames := by
        rintro done buf headed rfl rfl executed
        refine .parses ?_
        split at executed
        · rename_i inPipeline
          cases executed
          exact .refuses headed inPipeline.1 inPipeline.2
        · rename_i admitted
          split at executed
          · rename_i routed
            cases executed
            exact .again headed routed
          · rename_i notRouted
            cases executed
            exact .routes headed admitted (by simpa using notRouted)
      cases result with
      | headers =>
          cases executed
          exact .parses (.headers rfl)
      | body head =>
          exact admits false [] rfl rfl rfl executed
      | done head =>
          exact admits true rest rfl rfl rfl executed
      | error error =>
          cases executed
          exact .parses (.error rfl)

theorem routed_deed
    {c next : ServerConnection}
    {req : Nat}
    {done : Bool}
    {buf : List Parsed}
    {frames : List Frame}
    (executed : c.routed req done buf = .next next frames) :
    Deed c (.frame (.routed req done buf)) next frames := by
  unfold routed at executed
  split at executed
  · rename_i partialMode
    cases executed
    exact .delivers (.partialMode partialMode)
  · rename_i notPartial
    have notPartial := Bool.eq_false_iff.mpr notPartial
    split at executed
    · rename_i done
      cases executed
      exact .delivers (.whole notPartial done)
    · rename_i notDone
      cases executed
      exact .delivers (.part notPartial (Bool.eq_false_iff.mpr notDone))

theorem received_deed
    {c next : ServerConnection}
    {req : Nat}
    {done : Bool}
    {buf : List Parsed}
    {frames : List Frame}
    (executed : c.received req done buf = .next next frames) :
    Deed c (.frame (.received req done buf)) next frames := by
  unfold received at executed
  cases done with
  | false =>
      cases executed
      exact .goesOn .unfinished
  | true =>
      simp only [Bool.not_true, Bool.false_eq_true, ↓reduceIte] at executed
      split at executed
      · rename_i finishes
        cases executed
        exact .goesOn (.finishes finishes)
      · rename_i waits
        have waits := Bool.eq_false_iff.mpr waits
        split at executed
        · rename_i stops
          cases executed
          exact .goesOn (.stops waits (by simpa using stops))
        · rename_i goesOn
          cases executed
          simp only [Bool.or_eq_true, Bool.not_eq_eq_eq_not, Bool.not_true,
            not_or, Bool.not_eq_true, Bool.not_eq_false] at goesOn
          exact .goesOn (.next waits goesOn.1 goesOn.2)

theorem Answers.deed
    {c next : ServerConnection}
    {cause : Cause}
    {req : Nat}
    {response : ServerResponse}
    {frames : List Frame}
    (answers : Answers c cause req response)
    (executed : c.respond req response = .next next frames) :
    Deed c cause next frames := by
  obtain ⟨attached, unanswered, rfl, front, rest, shape, either⟩ :=
    respond_next executed
  have called : frames = if front = req then [.writeNextResponse] else [] := by
    rcases either with ⟨same, rfl⟩ | ⟨other, rfl⟩
    · rw [if_pos same]
    · rw [if_neg other]
  rw [called]
  exact .answers answers attached unanswered shape

theorem checkIfIdle_idles
    {c next : ServerConnection}
    {frames : List Frame}
    (executed : c.checkIfIdle = .next next frames) :
    frames = [] ∧ Idles c next := by
  unfold checkIfIdle at executed
  split at executed
  · rename_i empty
    split at executed
    · cases executed
    · rename_i active isTimer
      split at executed
      · rename_i arms
        cases executed
        simp only [Bool.and_eq_true, Bool.not_eq_eq_eq_not, Bool.not_true,
          beq_iff_eq] at arms
        rw [arms.1] at isTimer
        exact ⟨rfl, .arms empty isTimer arms.2⟩
      · rename_i rests
        cases executed
        refine ⟨rfl, .already empty isTimer ?_⟩
        cases active with
        | true =>
            exact Or.inl rfl
        | false =>
            right
            simpa [Nat.pos_iff_ne_zero] using rests
  · rename_i busy
    cases executed
    exact ⟨rfl, .busy busy⟩

theorem finishReturn_deed
    {c next : ServerConnection}
    {frames : List Frame}
    (executed : c.finishReturn = .next next frames) :
    Deed c (.frame .finishReturn) next frames := by
  unfold finishReturn at executed
  split at executed
  · rename_i ending
    split at executed
    · rename_i empty
      exact .closes (.finish (by simpa using ending) empty) executed
    · cases executed
  · rename_i going
    simp only [Bool.or_eq_true, not_or, Bool.not_eq_true] at going
    split at executed
    · rename_i empty
      obtain ⟨rfl, idles⟩ := checkIfIdle_idles executed
      exact .returns going.1 going.2 (by simp [empty]) idles
    · rename_i front rest shape
      split at executed
      · rename_i responded
        cases executed
        exact .takesUp going.1 going.2 shape responded
      · rename_i unanswered
        cases executed
        refine .returns going.1 going.2 ?_ (.busy (by simp [shape]))
        simpa [shape, Responded] using unanswered

theorem dropRequests_deed
    {c next : ServerConnection}
    {error : Option ErrorCode}
    {returns : DropReturn}
    {frames : List Frame}
    (executed : c.dropRequests error returns = .next next frames) :
    Deed c (.frame (.dropRequests error returns)) next frames := by
  unfold dropRequests at executed
  split at executed
  · rename_i req rest shape
    cases executed
    exact .pops shape
  · rename_i empty
    split at executed
    · cases executed
      exact .dropped empty
    · cases executed
      exact .removes (Or.inr ⟨⟨error, rfl⟩, empty⟩)
    · rename_i req tmpChunks
      unfold flushResponse at executed
      split at executed
      · rename_i completed
        cases executed
        exact .finishesHeld empty completed
      · rename_i unfinished
        cases executed
        exact .flushesHeld empty unfinished

theorem dropNotify_deed
    {c next : ServerConnection}
    {req : Nat}
    {error : Option ErrorCode}
    {frames : List Frame}
    (executed : c.dropNotify req error = .next next frames) :
    Deed c (.frame (.dropNotify req error)) next frames := by
  unfold dropNotify at executed
  dsimp only at executed
  split at executed
  · rename_i notDone
    have notDone : ¬ c.Done req := by simpa [Done] using notDone
    split at executed
    · rename_i isPartial
      cases executed
      exact .notifies (.part notDone isPartial)
    · rename_i notPartial
      cases executed
      exact .notifies (.error notDone (Bool.eq_false_iff.mpr notPartial))
  · rename_i done
    have done : c.Done req := by simpa [Done] using done
    split at executed
    · cases executed
      exact .rests (by simp [Cause.stack, suspends])
    · rename_i unfinished
      cases executed
      exact .notifies (.drop done unfinished)

/-- Every frame that goes on does one deed. -/
theorem code_deed
    {c next : ServerConnection}
    {frame : Frame}
    {frames : List Frame}
    (executed : code frame c = .next next frames) :
    Deed c (.frame frame) next frames := by
  cases frame with
  | callback callback =>
      cases executed
      exact .rests (by simp [Cause.stack, suspends])
  | fire callback =>
      cases executed
      exact .fires callback
  | onRead buf =>
      exact onReadLoop_deed executed
  | routed req done buf =>
      exact routed_deed executed
  | received req done buf =>
      exact received_deed executed
  | requestError req error =>
      cases executed
      exact .reports req error
  | requestErrorReturn req =>
      change c.requestErrorReturn req = .next next frames at executed
      unfold requestErrorReturn at executed
      split at executed
      · exact Answers.error.deed executed
      · rename_i response stored
        split at executed
        · cases executed
          exact .marks stored
        · rename_i notKeepAlive
          cases executed
          have marked : { response with keepAlive := false } = response := by
            cases response
            simpa using notKeepAlive
          have same :
              c.setResponse req { response with keepAlive := false } = c := by
            rw [marked]
            exact setResponse_stored stored
          have marks := Deed.marks stored
          rwa [same] at marks
  | readIgnore =>
      cases executed
      exact .ignores
  | writeNextResponse =>
      obtain ⟨req, rest, given, shape, stored, writes⟩ :=
        writeNextResponse_next executed
      exact .writes shape stored writes
  | finishRequest =>
      obtain ⟨req, rest, shape, completed, either⟩ := finishRequest_next executed
      rcases either with ⟨notDone, rfl, rfl⟩ | ⟨done, rfl, rfl⟩
      · exact .waits shape completed notDone
      · exact .leaves shape completed done
  | finishReturn =>
      exact finishReturn_deed executed
  | dropRequests error returns =>
      exact dropRequests_deed executed
  | dropNotify req error =>
      exact dropNotify_deed executed
  | upgradeReturn =>
      cases executed
      exact .removes (Or.inl rfl)

/-! ## The entry points -/

theorem sendContinue_deed
    {c next : ServerConnection}
    {req : Nat}
    {frames : List Frame}
    (executed : c.sendContinue req = .next next frames) :
    Deed c (.input (.sendContinue req)) next frames := by
  unfold sendContinue at executed
  split at executed
  · cases executed
  · rename_i front rest shape
    dsimp only at executed
    split at executed
    · cases executed
      exact .rests (by simp [Cause.stack, suspends])
    · rename_i isFront
      split at executed
      · cases executed
        exact .rests (by simp [Cause.stack, suspends])
      · split at executed
        · cases executed
        · rename_i unanswered
          cases executed
          have isFront : front = req := not_not.mp isFront
          subst isFront
          exact .continues shape unanswered

theorem sendChunk_deed
    {c next : ServerConnection}
    {req : Nat}
    {response : ServerResponse}
    {data : Data}
    {frames : List Frame}
    (accepts : c.Accepts req)
    (stored : (c.store req).response = some response)
    (executed : c.sendChunk req response data = .next next frames) :
    Deed c (.input (.sendChunk req data)) next frames := by
  unfold sendChunk at executed
  dsimp only at executed
  split at executed
  · cases executed
  · rename_i front rest shape
    split at executed
    · rename_i empty
      cases executed
      exact .sendsChunk accepts (.empty empty)
    · rename_i nonempty
      split at executed
      · rename_i isFront
        subst isFront
        cases executed
        exact .sendsChunk accepts (.writes nonempty shape)
      · cases executed
        exact .sendsChunk accepts (.keeps stored)

theorem sendFinalChunk_deed
    {c next : ServerConnection}
    {req : Nat}
    {response : ServerResponse}
    {data : Data}
    {frames : List Frame}
    (accepts : c.Accepts req)
    (stored : (c.store req).response = some response)
    (executed : c.sendFinalChunk req response data = .next next frames) :
    Deed c (.input (.sendFinalChunk req data)) next frames := by
  unfold sendFinalChunk at executed
  dsimp only at executed
  split at executed
  · cases executed
  · rename_i front rest shape
    split at executed
    · rename_i isFront
      subst isFront
      cases executed
      exact .sendsFinal accepts (.writes stored shape)
    · cases executed
      exact .sendsFinal accepts (.keeps stored)

theorem requestUpgrade_deed
    {c next : ServerConnection}
    {req : Nat}
    {frames : List Frame}
    (executed : c.requestUpgrade req = .next next frames) :
    Deed c (.input (.upgrade req)) next frames := by
  unfold requestUpgrade at executed
  split at executed
  · cases executed
    exact .rests (by simp [Cause.stack, suspends])
  · rename_i attached
    split at executed
    · cases executed
      exact .rests (by simp [Cause.stack, suspends])
    · rename_i wants
      unfold ServerConnection.upgrade at executed
      split at executed
      · rename_i alone
        cases executed
        exact .upgrades (by simpa [Attached] using attached)
          (by simpa using wants) alone
      · cases executed

/-- Every entry point that goes on does one deed. -/
theorem accept_deed
    {c next : ServerConnection}
    {input : Input}
    {top : Option Frame}
    {frames : List Frame}
    (accepted : accept input top c = some (.next next frames)) :
    Deed c (.input input) next frames := by
  cases input with
  | respond req response =>
      simp only [accept] at accepted
      split at accepted
      · cases accepted
      · rename_i fresh
        simp only [Option.some.injEq, requestRespond] at accepted
        split at accepted
        · exact (Answers.call (Bool.eq_false_iff.mpr fresh)).deed accepted
        · cases accepted
          exact .rests (by simp [Cause.stack, suspends])
  | sendContinue req =>
      simp only [accept, Option.some.injEq, requestSendContinue] at accepted
      split at accepted
      · exact sendContinue_deed accepted
      · cases accepted
        exact .rests (by simp [Cause.stack, suspends])
  | sendChunk req data =>
      simp only [accept, Option.some.injEq] at accepted
      rcases responseSend_next accepted with
        ⟨rfl, rfl⟩ | ⟨response, stored, accepts, executed⟩
      · exact .rests (by simp [Cause.stack, suspends])
      · exact sendChunk_deed accepts stored executed
  | sendFinalChunk req data =>
      simp only [accept, Option.some.injEq] at accepted
      rcases responseSend_next accepted with
        ⟨rfl, rfl⟩ | ⟨response, stored, accepts, executed⟩
      · exact .rests (by simp [Cause.stack, suspends])
      · exact sendFinalChunk_deed accepts stored executed
  | drop req =>
      simp only [accept, Option.some.injEq, requestDrop] at accepted
      split at accepted
      · cases accepted
        exact .rests (by simp [Cause.stack, suspends])
      · rename_i active
        simp only [Bool.or_eq_true, Bool.not_eq_eq_eq_not, Bool.not_true,
          not_or, Bool.not_eq_false] at active
        exact .closes (.drop active.1 active.2) accepted
  | upgrade req =>
      exact requestUpgrade_deed (Option.some.inj accepted)
  | enablePartial req =>
      cases accepted
      exact .enables req
  | close error =>
      exact .closes (.close error) (Option.some.inj accepted)
  | shutdown error =>
      exact .closes (.shutdown error) (Option.some.inj accepted)
  | gracefulStop =>
      simp only [accept, Option.some.injEq, gracefulStop] at accepted
      split at accepted
      · rename_i empty
        exact .closes (.gracefulStop empty) accepted
      · rename_i busy
        cases accepted
        exact .stops busy
  | onRead buf =>
      cases top <;> simp only [accept, reduceCtorEq] at accepted
      split at accepted
      · rename_i canRead
        cases accepted
        exact .receives buf (by simpa [Silent] using canRead)
      · cases accepted
  | onReadError error =>
      cases top <;> simp only [accept, reduceCtorEq] at accepted
      split at accepted
      · obtain ⟨req, rfl, fails⟩ := onReadError_next (Option.some.inj accepted)
        exact .fails (Option.some.inj accepted) fails
      · cases accepted
  | onEof =>
      cases top <;> simp only [accept, reduceCtorEq] at accepted
      split at accepted
      · exact .closes .eof (Option.some.inj accepted)
      · cases accepted
  | onWrite error =>
      cases top <;> simp only [accept, reduceCtorEq] at accepted
      split at accepted
      · rename_i pending
        simp only [Bool.and_eq_true, decide_eq_true_eq] at pending
        cases error with
        | some error =>
            exact .closes (.write error) (Option.some.inj accepted)
        | none =>
            obtain ⟨rfl, idles⟩ :=
              checkIfIdle_idles (Option.some.inj accepted)
            exact .written pending.2 pending.1 idles
      · cases accepted
  | onShutdown =>
      cases top <;> simp only [accept, reduceCtorEq] at accepted
      split at accepted
      · rename_i requested
        simp only [Bool.and_eq_true] at requested
        cases accepted
        exact .shutsDown requested.2
      · cases accepted
  | onConnectionError error =>
      cases top <;> simp only [accept, reduceCtorEq] at accepted
      split at accepted
      · exact .closes (.connection error) (Option.some.inj accepted)
      · cases accepted
  | idleTimeout =>
      cases top <;> simp only [accept, reduceCtorEq] at accepted
      split at accepted
      · simp only [Option.some.injEq, onIdleTimeout] at accepted
        split at accepted
        · rename_i empty
          exact .closes (.idle empty) accepted
        · cases accepted
      · cases accepted

/-- The event loop acts only when nothing runs. -/
theorem accept_event
    {c : ServerConnection}
    {input : Input}
    {stack : List Frame}
    {step : Step}
    (event : isEvent input = true)
    (accepted : accept input stack.head? c = some step) :
    stack = [] := by
  cases stack with
  | nil =>
      rfl
  | cons frame rest =>
      cases input with
      | onRead _ | onReadError _ | onEof | onWrite _ | onShutdown
      | onConnectionError _ | idleTimeout =>
          cases accepted
      | _ =>
          cases event

/-! ## Calm code -/

/-- Observations that are neither about the deque nor about the end. -/
def isMinor : Event → Bool
  | .fired _ => true
  | .responded _ _ => true
  | .gaveChunk _ _ => true
  | .gaveFinalChunk _ _ => true
  | .removed => true
  | _ => false

/--
The code observes and writes, and changes flags and responses: the deque, the
parser, the timer and what has been read of the requests stay as they are.
-/
inductive Calm : ServerConnection → ServerConnection → Prop where
  | refl (c : ServerConnection) : Calm c c
  | trans {first second third : ServerConnection} :
      Calm first second → Calm second third → Calm first third
  | emit (c : ServerConnection) {event : Event} :
      isMinor event = true → Calm c (c.emit event)
  | write (c : ServerConnection) (piece : Piece) : Calm c (c.write piece)
  | readIgnore (c : ServerConnection) : Calm c c.readIgnore
  | setRequest (c : ServerConnection) (req : Nat) {request : ServerRequest} :
      request.connection = (c.store req).connection →
      request.isDone = (c.store req).isDone →
      request.routed = (c.store req).routed →
      request.head = (c.store req).head →
      ((c.store req).partialMode = true → request.partialMode = true) →
      Calm c (c.setRequest req request)
  | flags (c : ServerConnection) (processed : Nat) {closing stopping : Bool} :
      (c.closing = true → closing = true) →
      (c.stopping = true → stopping = true) →
      Calm c
        { c with
          requestsProcessed := processed
          closing := closing
          stopping := stopping }

namespace Calm

theorem setResponse
    (c : ServerConnection)
    (req : Nat)
    (response : ServerResponse) :
    Calm c (c.setResponse req response) :=
  .setRequest c req rfl rfl rfl rfl id

theorem writeChunks
    (c : ServerConnection)
    (req : Nat)
    (chunks : List Data) :
    Calm c (c.writeChunks req chunks) := by
  induction chunks generalizing c with
  | nil =>
      exact .refl c
  | cons data rest inductionHypothesis =>
      exact (Calm.write c _).trans (inductionHypothesis _)

theorem startClosing (c : ServerConnection) (req : Nat) :
    Calm c (c.startClosing req) := by
  have closing : Calm c { c with closing := true } :=
    .flags c c.requestsProcessed (fun _ => rfl) id
  unfold ServerConnection.startClosing
  dsimp only
  split
  · exact closing.trans (.readIgnore _)
  · exact closing

theorem takeResponse
    (c : ServerConnection)
    (req : Nat)
    (response : ServerResponse) :
    Calm c (c.takeResponse req response) := by
  unfold ServerConnection.takeResponse
  refine Calm.trans ?_ (.emit _ rfl)
  refine Calm.trans ?_ (setResponse _ _ _)
  exact .flags c _ id fun stopping => by simp [stopping]

theorem writeHead
    (c : ServerConnection)
    (req : Nat)
    (response : ServerResponse) :
    Calm c (c.writeHead req response) :=
  (setResponse c req response).trans (.write _ _)

theorem writesHead
    {c next : ServerConnection}
    {req : Nat}
    {rest : List Nat}
    {response : ServerResponse}
    (writes : WritesHead c req rest response next) :
    Calm c next := by
  cases writes with
  | keepAlive _ _ =>
      exact writeHead c req response
  | closing _ =>
      exact (writeHead c req response).trans (startClosing _ req)

theorem sendsChunk
    {c next : ServerConnection}
    {req : Nat}
    {data : Data}
    (sends : SendsChunk c req data next) :
    Calm c next := by
  have gave : Calm c (c.emit (.gaveChunk req data)) := .emit c rfl
  cases sends with
  | empty _ =>
      exact gave
  | writes _ _ =>
      exact gave.trans (.write _ _)
  | keeps _ =>
      exact gave.trans (setResponse _ _ _)

theorem sendsFinal
    {c next : ServerConnection}
    {req : Nat}
    {data : Data}
    {frames : List Frame}
    (sends : SendsFinal c req data next frames) :
    Calm c next := by
  have gave : Calm c (c.emit (.gaveFinalChunk req data)) := .emit c rfl
  cases sends with
  | writes _ _ =>
      exact (gave.trans (setResponse _ _ _)).trans (.write _ _)
  | keeps _ =>
      exact gave.trans (setResponse _ _ _)

end Calm

/-! ## The deque -/

theorem Calm.requests
    {c next : ServerConnection}
    (calm : Calm c next) :
    next.requests = c.requests := by
  induction calm with
  | trans _ _ one two =>
      exact two.trans one
  | _ =>
      rfl

theorem Idles.requests
    {c next : ServerConnection}
    (idles : Idles c next) :
    next.requests = c.requests := by
  cases idles <;> rfl

theorem Closes.requests
    {c middle next : ServerConnection}
    {cause : Cause}
    {error : Option ErrorCode}
    {soft : Bool}
    {frames : List Frame}
    (closes : Closes c cause middle error soft)
    (executed : middle.doClose error soft = .next next frames) :
    next.requests = c.requests := by
  have reached : middle.requests = c.requests := by
    cases closes <;> rfl
  rw [← reached]
  cases soft <;> cases executed <;> rfl

/-- The request that a step reads. -/
inductive ReadsFor (c : ServerConnection) : Cause → Nat → Prop where
  | parses (result : Parsed) (rest : List Parsed) :
      ReadsFor c (.frame (.onRead (result :: rest))) (c.parseRequest result).2
  | fails {error : ErrorCode} {next : ServerConnection} {req : Nat} :
      ReadFails { c with stream := { c.stream with ended := true } } next req →
      ReadsFor c (.input (.onReadError error)) req

section

variable
  {c next : ServerConnection}
  {cause : Cause}
  {below frames : List Frame}
  {req : Nat}

/-- What holds of the frames below the top, and of callbacks, holds below a step. -/
theorem Cause.Fits.all_below
    {property : Frame → Prop}
    (fits : cause.Fits below)
    (callback : ∀ fired, property (.callback fired))
    (tail : ∀ frame ∈ (cause.stack ++ below).tail, property frame) :
    ∀ frame ∈ below, property frame := by
  intro frame member
  cases cause with
  | frame top =>
      exact tail frame member
  | input called =>
      cases below with
      | nil =>
          cases member
      | cons top rest =>
          rcases List.mem_cons.mp member with rfl | inRest
          · have runs : isCallback frame = true := fits.1
            cases frame with
            | callback fired =>
                exact callback fired
            | _ =>
                cases runs
          · exact tail frame inRest

/-- A request of the deque was in it, was held by the step, or has been read. -/
theorem Deed.joins
    (deed : Deed c cause next frames)
    (member : req ∈ next.requests) :
    req ∈ c.requests ∨ req ∈ held cause.stack ∨ ReadsFor c cause req := by
  have kept :
      next.requests = c.requests →
      req ∈ c.requests ∨ req ∈ held cause.stack ∨ ReadsFor c cause req :=
    fun same => Or.inl (same ▸ member)
  cases deed with
  | rests _ | dropped _ | delivers _ | takesUp _ _ _ _ | notifies _
  | receives _ _ | fires _ | removes _ | reports _ _ | ignores | marks _
  | waits _ _ _ | enables _ | shutsDown _ | stops _ | continues _ _
  | answers _ _ _ _ =>
      exact kept rfl
  | parses admits =>
      rename_i result rest
      have same : next.requests = (c.parseRequest result).1.requests := by
        cases admits <;> rfl
      rw [same, (parseRequest_parses c result).requests] at member
      split at member
      · exact Or.inl member
      · rcases List.mem_append.mp member with old | new
        · exact Or.inl old
        · rw [List.mem_singleton.mp new]
          exact Or.inr (Or.inr (.parses result rest))
  | goesOn goesOn =>
      cases goesOn <;> exact kept rfl
  | writes shape _ writes =>
      cases writes with
      | finish writesHead _ =>
          exact kept (Calm.writesHead writesHead).requests
      | flush writesHead _ =>
          exact kept
            ((Calm.writesHead writesHead).trans (.writeChunks _ _ _)).requests
      | hold _ _ =>
          rw [shape]
          exact Or.inl (List.mem_cons_of_mem _ member)
  | leaves shape _ _ | pops shape =>
      rw [shape]
      exact Or.inl (List.mem_cons_of_mem _ member)
  | upgrades _ _ _ =>
      cases member
  | finishesHeld _ _ =>
      rw [List.mem_singleton.mp member]
      exact Or.inr (Or.inl (by simp [held, held?, Cause.stack]))
  | flushesHeld _ _ =>
      rw [Calm.requests (.writeChunks _ _ _)] at member
      rw [List.mem_singleton.mp member]
      exact Or.inr (Or.inl (by simp [held, held?, Cause.stack]))
  | returns _ _ _ idles =>
      exact kept idles.requests
  | written _ _ idles =>
      exact kept idles.requests
  | closes closes executed =>
      exact kept (closes.requests executed)
  | sendsChunk _ sends =>
      exact kept (Calm.sendsChunk sends).requests
  | sendsFinal _ sends =>
      exact kept (Calm.sendsFinal sends).requests
  | fails _ fails =>
      rcases fails.origin with ⟨_, _, same, _⟩ | ⟨_, _, joined, _⟩
      · exact kept same
      · rw [joined] at member
        rcases List.mem_append.mp member with old | new
        · exact Or.inl old
        · rw [List.mem_singleton.mp new]
          exact Or.inr (Or.inr (.fails fails))

/-- `write_next_response` holds the first request of the deque. -/
theorem Deed.holds
    (deed : Deed c cause next frames)
    (member : req ∈ held frames) :
    req ∈ c.requests ∨ req ∈ held cause.stack := by
  cases deed with
  | parses admits =>
      cases admits <;> simp [held, held?] at member
  | delivers delivers =>
      cases delivers <;> simp [held, held?] at member
  | goesOn goesOn =>
      cases goesOn <;> simp [held, held?] at member
  | answers _ _ _ _ =>
      split at member <;> simp [held, held?] at member
  | writes shape _ writes =>
      cases writes with
      | finish _ _ | flush _ _ =>
          simp [held, held?] at member
      | hold _ _ =>
          rw [shape]
          simp only [held, held?, List.filterMap_cons, List.filterMap_nil,
            List.mem_singleton] at member
          simp [member]
  | pops _ =>
      exact Or.inr (by simpa [held, held?, Cause.stack] using member)
  | closes _ executed =>
      cases (doClose_next executed).2
      simp [held, held?] at member
  | sendsFinal _ sends =>
      cases sends <;> simp [held, held?] at member
  | _ =>
      simp [held, held?] at member

end

/-! ## What no step takes back -/

/-- The history grows, and the end of the connection is not taken back. -/
structure Onward (c next : ServerConnection) : Prop where
  config : next.config = c.config
  trace : ∃ events, next.trace = c.trace ++ events
  closing : c.closing = true → next.closing = true
  silent : c.Silent → next.Silent

namespace Onward

theorem refl (c : ServerConnection) : Onward c c :=
  ⟨rfl, ⟨[], (List.append_nil _).symm⟩, id, id⟩

theorem trans
    {first second third : ServerConnection}
    (one : Onward first second)
    (two : Onward second third) :
    Onward first third where
  config := two.config.trans one.config
  trace := by
    obtain ⟨earlier, grown⟩ := one.trace
    obtain ⟨later, grownAgain⟩ := two.trace
    exact ⟨earlier ++ later, by rw [grownAgain, grown, List.append_assoc]⟩
  closing closing := two.closing (one.closing closing)
  silent silent := two.silent (one.silent silent)

theorem emit (c : ServerConnection) (event : Event) : Onward c (c.emit event) :=
  ⟨rfl, ⟨[event], rfl⟩, id, id⟩

/-- Only the deque, the parser, the timer and the requests change. -/
theorem of_stream
    {c next : ServerConnection}
    (config : next.config = c.config)
    (trace : next.trace = c.trace)
    (closing : next.closing = c.closing)
    (stream : next.stream = c.stream) :
    Onward c next :=
  ⟨config, ⟨[], by simp [trace]⟩, by simp [closing],
    by simp [Silent, canRead, stream]⟩

theorem of_calm
    {c next : ServerConnection}
    (calm : Calm c next) :
    Onward c next := by
  induction calm with
  | refl c =>
      exact refl c
  | trans _ _ one two =>
      exact one.trans two
  | emit c _ =>
      exact emit c _
  | write c piece =>
      exact ⟨rfl, ⟨[.wrote piece], rfl⟩, id, id⟩
  | readIgnore c =>
      exact ⟨rfl, ⟨[.readIgnored], rfl⟩, id,
        fun _ => by simp [Silent, canRead, ServerConnection.readIgnore]⟩
  | setRequest c _ _ _ _ _ _ =>
      exact of_stream rfl rfl rfl rfl
  | flags c processed closing stopping =>
      exact ⟨rfl, ⟨[], (List.append_nil _).symm⟩, closing, id⟩

theorem cleanupRequest
    (c : ServerConnection)
    (req : Nat)
    (rest : List Nat) :
    Onward c (c.cleanupRequest req rest) := by
  have detached :
      Onward c
        (({ c with requests := rest } : ServerConnection).setRequest req
          { c.store req with connection := false }) :=
    of_stream rfl rfl rfl rfl
  exact detached.trans (emit _ _)

theorem idles
    {c next : ServerConnection}
    (idles : Idles c next) :
    Onward c next := by
  cases idles with
  | busy _ | already _ _ _ =>
      exact refl c
  | arms _ _ _ =>
      exact of_stream rfl rfl rfl rfl

theorem closes
    {c middle next : ServerConnection}
    {cause : Cause}
    {error : Option ErrorCode}
    {soft : Bool}
    {frames : List Frame}
    (closes : Closes c cause middle error soft)
    (executed : middle.doClose error soft = .next next frames) :
    Onward c next := by
  have reached : Onward c middle := by
    cases closes <;>
      refine ⟨rfl, ⟨[], (List.append_nil _).symm⟩, id, ?_⟩ <;>
      simp +contextual [Silent, canRead]
  refine (reached.trans (emit middle (.closed soft))).trans ?_
  cases soft <;> cases executed <;>
    refine ⟨rfl, ⟨[], (List.append_nil _).symm⟩, id, ?_⟩ <;>
    simp +contextual [Silent, canRead, ServerConnection.emit]

theorem admits
    {parsed next : ServerConnection}
    {result : Parsed}
    {rest : List Parsed}
    {req : Nat}
    {frames : List Frame}
    (admits : Admits parsed result rest req next frames) :
    Onward parsed next := by
  cases admits with
  | error _ | headers _ | refuses _ _ _ | again _ _ =>
      exact refl parsed
  | routes _ _ _ =>
      exact of_stream rfl rfl rfl rfl

end Onward

theorem config_parseRequest (c : ServerConnection) (result : Parsed) :
    (c.parseRequest result).1.config = c.config := by
  cases parsing : c.parsing with
  | some req =>
      by_cases last : c.requests.getLast? = some req <;>
        simp [parseRequest, parseShift, stopIdleTimer, parsing, last,
          setRequest, append]
  | none =>
      by_cases last : c.requests.getLast? = some c.nextId <;>
        simp [parseRequest, parseShift, stopIdleTimer, parsing, last,
          setRequest, append, newRequest]

theorem onward_parseRequest (c : ServerConnection) (result : Parsed) :
    Onward c (c.parseRequest result).1 := by
  have parses := parseRequest_parses c result
  refine ⟨config_parseRequest c result, ?_, by simp [parses.closing],
    by simp [Silent, canRead, parses.stream]⟩
  obtain ⟨_, _, ⟨_, _, _, trace⟩ | ⟨_, _, _, _, trace⟩⟩ := parses.origin
  · exact ⟨_, trace⟩
  · exact ⟨_, by rw [trace, List.append_assoc]⟩

theorem onward_onReadError
    {c next : ServerConnection}
    {error : ErrorCode}
    {req : Nat}
    {frames : List Frame}
    (executed : c.onReadError error = .next next frames)
    (fails : ReadFails c next req) :
    Onward c next := by
  refine ⟨?_, ?_, by simp [fails.closing],
    by simp [Silent, canRead, fails.stream]⟩
  · unfold onReadError at executed
    dsimp only at executed
    split at executed
    · cases executed
    · cases executed
      simp only [setRequest]
      split
      · rfl
      · split <;> rfl
  · rcases fails.origin with ⟨_, _, _, _, trace, _⟩ | ⟨_, _, _, _, trace, _⟩
    · exact ⟨[], by simp [trace]⟩
    · exact ⟨_, trace⟩

/-- Every deed goes onward. -/
theorem Deed.onward
    {c next : ServerConnection}
    {cause : Cause}
    {frames : List Frame}
    (deed : Deed c cause next frames) :
    Onward c next := by
  have setRequest :
      ∀ req request, Onward c (c.setRequest req request) :=
    fun _ _ => Onward.of_stream rfl rfl rfl rfl
  cases deed with
  | rests _ | dropped _ | delivers _ | takesUp _ _ _ _ | notifies _
  | receives _ _ =>
      exact Onward.refl c
  | fires _ | removes _ =>
      exact Onward.emit c _
  | parses admits =>
      exact (onward_parseRequest c _).trans (Onward.admits admits)
  | goesOn goesOn =>
      cases goesOn with
      | unfinished | finishes _ | next _ _ _ =>
          exact Onward.refl c
      | stops _ _ =>
          exact Onward.of_calm (.readIgnore c)
  | reports _ _ | ignores =>
      exact Onward.of_calm (.readIgnore c)
  | answers _ _ _ _ =>
      exact Onward.of_calm (.takeResponse c _ _)
  | marks _ | waits _ _ _ | enables _ =>
      exact setRequest _ _
  | writes shape stored writes =>
      cases writes with
      | finish writesHead _ =>
          exact Onward.of_calm (.writesHead writesHead)
      | flush writesHead _ =>
          exact Onward.of_calm
            ((Calm.writesHead writesHead).trans (.writeChunks _ _ _))
      | hold nonempty either =>
          rename_i req _ given
          have wrote :=
            Onward.of_calm
              ((Calm.writeHead c req (c.prepared given).withoutTmpChunks).trans
                (.startClosing _ req))
          exact wrote.trans (Onward.of_stream rfl rfl rfl rfl)
  | leaves _ _ _ =>
      exact Onward.cleanupRequest c _ _
  | returns _ _ _ idles =>
      exact Onward.idles idles
  | closes closes executed =>
      exact Onward.closes closes executed
  | pops _ =>
      exact (Onward.cleanupRequest c _ _).trans (Onward.emit _ _)
  | finishesHeld _ _ =>
      exact Onward.of_stream rfl rfl rfl rfl
  | flushesHeld _ _ =>
      rename_i req chunks _ _
      have restored : Onward c { c with requests := [req] } :=
        Onward.of_stream rfl rfl rfl rfl
      exact restored.trans (Onward.of_calm (.writeChunks _ _ _))
  | shutsDown _ =>
      have stopped :
          Onward c
            { c.stopIdleTimer with
              stream := { c.stream with listener := false } } :=
        ⟨rfl, ⟨[], (List.append_nil _).symm⟩, id,
          fun _ => by simp [Silent, canRead]⟩
      exact stopped.trans (Onward.emit _ _)
  | upgrades _ _ _ =>
      have handed :
          Onward c
            { c with
              stream := { c.stream with listener := false }
              idleTimer := none } :=
        ⟨rfl, ⟨[], (List.append_nil _).symm⟩, id,
          fun _ => by simp [Silent, canRead]⟩
      exact (handed.trans (Onward.emit _ _)).trans
        (Onward.cleanupRequest _ _ _)
  | stops _ =>
      exact Onward.of_stream rfl rfl rfl rfl
  | continues _ _ =>
      exact Onward.of_calm (.write c _)
  | sendsChunk _ sends =>
      exact Onward.of_calm (.sendsChunk sends)
  | sendsFinal _ sends =>
      exact Onward.of_calm (.sendsFinal sends)
  | fails executed fails =>
      have ended :
          Onward c { c with stream := { c.stream with ended := true } } :=
        ⟨rfl, ⟨[], (List.append_nil _).symm⟩, id,
          fun _ => by simp [Silent, canRead]⟩
      exact ended.trans (onward_onReadError executed fails)
  | written _ _ idles =>
      have counted :
          Onward c
            { c with
              stream :=
                { c.stream with writeQueue := c.stream.writeQueue - 1 } } :=
        ⟨rfl, ⟨[], (List.append_nil _).symm⟩, id, id⟩
      exact counted.trans (Onward.idles idles)

theorem Onward.closed
    {c next : ServerConnection}
    (onward : Onward c next)
    (closed : c.Closed) :
    next.Closed := by
  obtain ⟨events, grown⟩ := onward.trace
  unfold Closed at closed ⊢
  rw [grown, List.any_append, closed, Bool.true_or]

theorem Onward.written
    {c next : ServerConnection}
    (onward : Onward c next) :
    ∃ pieces, next.written = c.written ++ pieces := by
  obtain ⟨events, grown⟩ := onward.trace
  unfold ServerConnection.written
  exact ⟨_, by rw [grown, List.filterMap_append]⟩

theorem Onward.started
    {c next : ServerConnection}
    {req : Nat}
    (onward : Onward c next)
    (started : c.Started req) :
    next.Started req := by
  obtain ⟨pieces, grown⟩ := onward.written
  obtain ⟨response, member⟩ := started
  exact ⟨response, by rw [grown]; exact List.mem_append_left _ member⟩

/-- A request has joined the deque, or the one that is being read goes on. -/
theorem Parses.nonempty
    {c next : ServerConnection}
    {result : Parsed}
    {req : Nat}
    (parses : Parses c result next req) :
    next.requests ≠ [] := by
  rw [parses.requests]
  split
  · rename_i last
    rintro empty
    simp [empty] at last
  · simp

theorem ReadFails.nonempty
    {c next : ServerConnection}
    {req : Nat}
    (fails : ReadFails c next req) :
    next.requests ≠ [] := by
  rcases fails.origin with ⟨last, _, same, _⟩ | ⟨_, _, joined, _⟩
  · rw [same]
    rintro empty
    simp [empty] at last
  · simp [joined]

/-! ## Every run -/

/-- A parsed request is the last one of the deque, or it joins it. -/
theorem Receiving.joins
    {c next : ServerConnection}
    {result : Parsed}
    {rest : List Parsed}
    {req : Nat}
    {below : List Frame}
    (receiving : Receiving c (.onRead (result :: rest) :: below))
    (parses : Parses c result next req) :
    below = [] ∧
      (c.parsing = some req ∧ c.requests.getLast? = some req ∧
          next.requests = c.requests ∨
        c.parsing = some req ∧ c.requests = [] ∧ next.requests = [req] ∨
        c.parsing = none ∧ req = c.nextId ∧
          next.requests = c.requests ++ [req]) := by
  have nothing := receiving.alone rfl
  subst nothing
  refine ⟨rfl, ?_⟩
  have requests := parses.requests
  obtain ⟨_, _, ⟨parsing, _, _, _⟩ | ⟨parsing, _, isNext, _⟩⟩ := parses.origin
  · obtain ⟨newest, inside | empty⟩ := receiving.reading parsing
    · have last := receiving.newest_last newest inside
      rw [if_pos last] at requests
      exact Or.inl ⟨parsing, last, requests⟩
    · rw [if_neg (by simp [empty]), empty] at requests
      exact Or.inr (Or.inl ⟨parsing, empty, requests⟩)
  · have notLast : c.requests.getLast? ≠ some req := by
      intro last
      have := receiving.requestsBelow req (List.mem_of_getLast? last)
      omega
    rw [if_neg notLast] at requests
    exact Or.inr (Or.inr ⟨parsing, isNext, requests⟩)

/--
An invariant that no deed breaks is preserved by every step, next to that of the
deque and the parser.
-/
theorem preserves_of_deeds
    {guard : Config → Label → Prop}
    {invariant : ServerConnection → List Frame → Prop}
    (step :
      ∀ cause below c next frames,
        guard ⟨c, cause.stack ++ below, none⟩ cause.label →
        cause.Fits below →
        Receiving c (cause.stack ++ below) →
        invariant c (cause.stack ++ below) →
        Deed c cause next frames →
        invariant next (frames ++ below))
    (ret :
      ∀ callback rest c,
        invariant c (.callback callback :: rest) → invariant c rest)
    (threw :
      ∀ input stack c exception,
        guard ⟨c, stack, none⟩ (.input input) →
        Receiving c stack →
        accept input stack.head? c =
          some (.raise (c.emit (.threw exception))) →
        invariant c stack →
        invariant (c.emit (.threw exception)) stack) :
    machine.Preserves guard fun c stack =>
      Receiving c stack ∧ invariant c stack where
  tick := by
    rintro frame rest c next frames running permitted ⟨receiving, holds⟩
      executed
    exact ⟨receiving.tick executed,
      step (.frame frame) rest c next frames permitted running receiving holds
        (code_deed executed)⟩
  tickRaise := fun frame rest c next _ _ _ executed =>
    (code_ne_raise frame c next executed).elim
  ret := by
    rintro frame rest c callback ⟨receiving, holds⟩
    cases frame with
    | callback fired =>
        exact ⟨receiving.ret, ret fired rest c holds⟩
    | _ =>
        simp [machine, isCallback] at callback
  throw := fun _ _ _ _ throws => by
    simp [machine] at throws
  input := by
    rintro input stack c next frames boundary permitted ⟨receiving, holds⟩
      accepted
    exact ⟨receiving.input boundary accepted,
      step (.input input) stack c next frames permitted
        ⟨boundary, fun event => accept_event event accepted⟩ receiving holds
        (accept_deed accepted)⟩
  inputRaise := by
    rintro called stack c next boundary permitted ⟨receiving, holds⟩ accepted
    obtain ⟨exception, rfl⟩ := accept_raise accepted
    exact ⟨receiving.threw boundary,
      threw called stack c exception permitted receiving accepted holds⟩

end UniEventHttp.ServerConnection
