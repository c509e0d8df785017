import UniEventHttp.ServerConnection

namespace UniEventHttp.ServerConnection

/-!
# What a state says about a request

The invariants of the connection speak about a request through a few
predicates.  This module defines them and says how the primitive updates of the
state change them.
-/

/-- The request's `_connection` points to the connection. -/
def Attached (c : ServerConnection) (req : Nat) : Prop :=
  (c.store req).connection = true

/-- A response has been given to the request. -/
def Responded (c : ServerConnection) (req : Nat) : Prop :=
  (c.store req).response.isSome = true

/-- The response of the request has been given to its end. -/
def Completed (c : ServerConnection) (req : Nat) : Prop :=
  (c.store req).responseCompleted = true

/-- The request is fully received. -/
def Done (c : ServerConnection) (req : Nat) : Prop :=
  (c.store req).isDone = true

/-- The stream will deliver no more buffers. -/
def Silent (c : ServerConnection) : Prop :=
  c.canRead = false

/-- The piece that an observation reports as written. -/
def piece? : Event → Option Piece
  | .wrote piece => some piece
  | _ => none

/-- The pieces written so far. -/
def written (c : ServerConnection) : List Piece :=
  c.trace.filterMap piece?

/-- The head of the request's response has been written. -/
def Started (c : ServerConnection) (req : Nat) : Prop :=
  ∃ response, Piece.head req response ∈ c.written

/-- The piece ends the body of its response. -/
def endsBlock : Piece → Bool
  | .continue100 _ => false
  | .head _ response => response.completed
  | .chunk _ _ => false
  | .finalChunk _ _ => true

/-- The block of a request is completely written. -/
def BlockWritten (c : ServerConnection) (req : Nat) : Prop :=
  ∃ piece ∈ c.written, piece.req = req ∧ endsBlock piece = true

/-- `do_close` or `upgrade`. -/
def isEnd : Event → Bool
  | .closed _ => true
  | .upgraded _ => true
  | _ => false

/-- `do_close` or `upgrade` has run. -/
def Closed (c : ServerConnection) : Prop :=
  c.trace.any isEnd = true

section Decidable

variable (c : ServerConnection) (req : Nat)

instance : Decidable (c.Attached req) := inferInstanceAs (Decidable (_ = _))

instance : Decidable (c.Responded req) := inferInstanceAs (Decidable (_ = _))

instance : Decidable (c.Completed req) := inferInstanceAs (Decidable (_ = _))

instance : Decidable (c.Done req) := inferInstanceAs (Decidable (_ = _))

instance : Decidable (c.Silent) := inferInstanceAs (Decidable (_ = _))

instance : Decidable (c.Closed) := inferInstanceAs (Decidable (_ = _))

/-- The piece is the head of a response to the request. -/
def isHeadOf : Piece → Bool
  | .head other _ => other == req
  | _ => false

instance : Decidable (c.Started req) :=
  decidable_of_iff (∃ piece ∈ c.written, isHeadOf req piece = true) <| by
    constructor
    · rintro ⟨piece, member, isHead⟩
      cases piece <;> simp_all [isHeadOf, Started]
      exact ⟨_, member⟩
    · rintro ⟨response, member⟩
      exact ⟨_, member, by simp [isHeadOf]⟩

end Decidable

/-! ## The primitive updates -/

section Updates

variable (c : ServerConnection) (req other : Nat)

@[simp] theorem store_setRequest (request : ServerRequest) :
    (c.setRequest req request).store other =
      if other = req then request else c.store other := by
  simp [setRequest, Function.update_apply]

@[simp] theorem store_setResponse (response : ServerResponse) :
    (c.setResponse req response).store other =
      if other = req then
        { c.store req with response := some response }
      else
        c.store other := by
  simp [setResponse]

@[simp] theorem written_emit (event : Event) :
    (c.emit event).written = c.written ++ (piece? event).toList := by
  cases shape : piece? event <;>
    simp [written, emit, List.filterMap_append, shape]

@[simp] theorem written_write (piece : Piece) :
    (c.write piece).written = c.written ++ [piece] := by
  simp [written, write, List.filterMap_append, piece?]

@[simp] theorem closed_emit (event : Event) :
    (c.emit event).Closed ↔ c.Closed ∨ isEnd event = true := by
  simp [Closed, emit]

@[simp] theorem closed_write (piece : Piece) :
    (c.write piece).Closed ↔ c.Closed := by
  simp [Closed, write, isEnd]

theorem started_write (piece : Piece) :
    (c.write piece).Started req ↔
      c.Started req ∨ ∃ response, piece = .head req response := by
  simp only [Started, written_write, List.mem_append, List.mem_singleton]
  constructor
  · rintro ⟨response, old | new⟩
    · exact Or.inl ⟨response, old⟩
    · exact Or.inr ⟨response, new.symm⟩
  · rintro (⟨response, old⟩ | ⟨response, new⟩)
    · exact ⟨response, Or.inl old⟩
    · exact ⟨response, Or.inr new.symm⟩

theorem blockWritten_write (piece : Piece) :
    (c.write piece).BlockWritten req ↔
      c.BlockWritten req ∨ piece.req = req ∧ endsBlock piece = true := by
  simp only [BlockWritten, written_write, List.mem_append,
    List.mem_singleton]
  constructor
  · rintro ⟨found, old | new, same, ends⟩
    · exact Or.inl ⟨found, old, same, ends⟩
    · subst found
      exact Or.inr ⟨same, ends⟩
  · rintro (⟨found, old, same, ends⟩ | ⟨same, ends⟩)
    · exact ⟨found, Or.inl old, same, ends⟩
    · exact ⟨piece, Or.inr rfl, same, ends⟩

end Updates

/-! ## The request that a buffer belongs to -/

/-- What `parseRequest` does: `next` is the state after it and `req` the request. -/
structure Parses
    (c : ServerConnection)
    (result : Parsed)
    (next : ServerConnection)
    (req : Nat) : Prop where
  requests :
    next.requests =
      if c.requests.getLast? = some req then
        c.requests
      else
        c.requests ++ [req]
  parsing : next.parsing = if result.isDone then none else some req
  stream : next.stream = c.stream
  closing : next.closing = c.closing
  stopping : next.stopping = c.stopping
  others : ∀ other, other ≠ req → next.store other = c.store other
  /-- The parser goes on with a request, or it starts a new one. -/
  origin :
    ∃ base : ServerRequest,
      next.store req =
          { base with
            isDone := result.isDone
            head := base.head.or result.head? } ∧
        (c.parsing = some req ∧ base = c.store req ∧
            next.nextId = c.nextId ∧
            next.trace =
              c.trace ++
                (if c.requests.getLast? = some req then
                  []
                else
                  [.appended req]) ∨
          c.parsing = none ∧ base = { connection := true } ∧
            req = c.nextId ∧ next.nextId = c.nextId + 1 ∧
            next.trace =
              c.trace ++ [.newRequest req] ++
                (if c.requests.getLast? = some req then
                  []
                else
                  [.appended req]))

theorem parseRequest_parses
    (c : ServerConnection)
    (result : Parsed) :
    Parses c result (c.parseRequest result).1 (c.parseRequest result).2 := by
  cases parsing : c.parsing with
  | some req =>
      have shape : (c.parseRequest result).2 = req := by
        simp [parseRequest, parseShift, stopIdleTimer, parsing]
      rw [shape]
      by_cases last : c.requests.getLast? = some req
      · constructor <;>
          simp +contextual [parseRequest, parseShift, stopIdleTimer,
            parsing, last, setRequest]
      · constructor <;>
          simp +contextual [parseRequest, parseShift, stopIdleTimer,
            parsing, last, setRequest, append]
  | none =>
      have shape : (c.parseRequest result).2 = c.nextId := by
        simp [parseRequest, parseShift, stopIdleTimer, parsing, newRequest]
      rw [shape]
      by_cases last : c.requests.getLast? = some c.nextId
      · constructor <;>
          simp +contextual [parseRequest, parseShift, stopIdleTimer,
            parsing, last, setRequest, newRequest]
      · constructor <;>
          simp +contextual [parseRequest, parseShift, stopIdleTimer,
            parsing, last, setRequest, append, newRequest]

/-- Parsing leaves the connection and the response of old requests alone. -/
theorem Parses.stored
    {c next : ServerConnection}
    {result : Parsed}
    {req other : Nat}
    (parses : Parses c result next req)
    (old : other < c.nextId) :
    (next.store other).connection = (c.store other).connection ∧
      (next.store other).response = (c.store other).response := by
  by_cases same : other = req
  · subst other
    obtain ⟨base, stored, ⟨_, rfl, _⟩ | ⟨_, _, isNext, _⟩⟩ := parses.origin
    · simp [stored]
    · omega
  · simp [parses.others other same]

/-- Parsing gives no response. -/
theorem Parses.responded
    {c next : ServerConnection}
    {result : Parsed}
    {req other : Nat}
    (parses : Parses c result next req)
    (old : other < c.nextId) :
    next.Responded other ↔ c.Responded other := by
  simp [Responded, (parses.stored old).2]

theorem Parses.nextId
    {c next : ServerConnection}
    {result : Parsed}
    {req : Nat}
    (parses : Parses c result next req) :
    c.nextId ≤ next.nextId := by
  obtain ⟨_, _, ⟨_, _, same, _⟩ | ⟨_, _, _, grows, _⟩⟩ := parses.origin <;>
    omega

/-- Parsing writes nothing. -/
theorem Parses.written
    {c next : ServerConnection}
    {result : Parsed}
    {req : Nat}
    (parses : Parses c result next req) :
    next.written = c.written := by
  obtain ⟨_, _, ⟨_, _, _, trace⟩ | ⟨_, _, _, _, trace⟩⟩ := parses.origin <;>
    unfold ServerConnection.written <;> rw [trace] <;> split <;>
    simp [piece?]

/-- The outcomes of one iteration of `on_read` when `req` has been parsed. -/
inductive Reads
    (parsed : ServerConnection)
    (result : Parsed)
    (rest : List Parsed)
    (req : Nat) :
    ServerConnection → List Frame → Prop where
  | error {error : ErrorCode} :
      result = .error error →
      Reads parsed result rest req parsed [.requestError req error]
  | headers :
      result = .headers →
      Reads parsed result rest req parsed []
  | upgrade :
      result.head?.isSome = true →
      1 < parsed.requests.length →
      Reads parsed result rest req parsed
        [.requestError req (.http .upgradeInPipeline), .readIgnore]
  | again :
      result.head?.isSome = true →
      (parsed.store req).routed = true →
      Reads parsed result rest req parsed
        [.routed req result.isDone (if result.isDone then rest else [])]
  | route :
      result.head?.isSome = true →
      (parsed.store req).routed = false →
      Reads parsed result rest req
        (parsed.setRequest req { parsed.store req with routed := true })
        [.fire (.routeEvent req),
          .routed req result.isDone (if result.isDone then rest else [])]

theorem onReadLoop_next
    {c next : ServerConnection}
    {result : Parsed}
    {rest : List Parsed}
    {frames : List Frame}
    (executed : c.onReadLoop (result :: rest) = .next next frames) :
    ∃ parsed req,
      Parses c result parsed req ∧
        Reads parsed result rest req next frames := by
  refine ⟨_, _, parseRequest_parses c result, ?_⟩
  -- both reports that come after the headers take the same way
  have routes :
      ∀ done buf,
        result.head?.isSome = true →
        result.isDone = done →
        (if done then rest else []) = buf →
        (if 1 < (c.parseRequest result).1.requests.length ∧
            ((c.parseRequest result).1.store
              (c.parseRequest result).2).headers.connection = "upgrade" then
          (.next (c.parseRequest result).1
            [.requestError (c.parseRequest result).2
              (.http .upgradeInPipeline), .readIgnore] : Step)
        else if ((c.parseRequest result).1.store
            (c.parseRequest result).2).routed then
          .next (c.parseRequest result).1
            [.routed (c.parseRequest result).2 done buf]
        else
          .next
            ((c.parseRequest result).1.setRequest (c.parseRequest result).2
              { (c.parseRequest result).1.store
                  (c.parseRequest result).2 with
                routed := true })
            [.fire (.routeEvent (c.parseRequest result).2),
              .routed (c.parseRequest result).2 done buf]) =
          .next next frames →
        Reads (c.parseRequest result).1 result rest (c.parseRequest result).2
          next frames := by
    rintro done buf headed rfl rfl executed
    split at executed
    · rename_i inPipeline
      cases executed
      exact .upgrade headed inPipeline.1
    · split at executed
      · rename_i routed
        cases executed
        exact .again headed routed
      · rename_i notRouted
        cases executed
        exact .route headed (by simpa using notRouted)
  cases result with
  | headers =>
      cases executed
      exact .headers rfl
  | body head =>
      exact routes false [] rfl rfl rfl executed
  | done head =>
      exact routes true rest rfl rfl rfl executed
  | error error =>
      cases executed
      exact .error rfl

/-- What a read error does before `request_error` is called for `req`. -/
structure ReadFails
    (c next : ServerConnection)
    (req : Nat) : Prop where
  parsing : next.parsing = c.parsing
  stream : next.stream = c.stream
  closing : next.closing = c.closing
  stopping : next.stopping = c.stopping
  others : ∀ other, other ≠ req → next.store other = c.store other
  /-- The error ends the request in progress, or it is given a request of its own. -/
  origin :
    c.requests.getLast? = some req ∧ ¬ c.Done req ∧
        next.requests = c.requests ∧ next.nextId = c.nextId ∧
        next.trace = c.trace ∧
        next.store req = { c.store req with isDone := true } ∨
      (∀ last, c.requests.getLast? = some last → c.Done last) ∧
        req = c.nextId ∧ next.requests = c.requests ++ [req] ∧
        next.nextId = c.nextId + 1 ∧
        next.trace = c.trace ++ [.newRequest req, .appended req] ∧
        next.store req = { connection := true, isDone := true }

/-- A read error leaves the connection and the response of old requests alone. -/
theorem ReadFails.stored
    {c next : ServerConnection}
    {req other : Nat}
    (fails : ReadFails c next req)
    (old : other < c.nextId) :
    (next.store other).connection = (c.store other).connection ∧
      (next.store other).response = (c.store other).response := by
  by_cases same : other = req
  · subst other
    rcases fails.origin with ⟨_, _, _, _, _, stored⟩ | ⟨_, isNext, _⟩
    · simp [stored]
    · omega
  · simp [fails.others other same]

theorem ReadFails.nextId
    {c next : ServerConnection}
    {req : Nat}
    (fails : ReadFails c next req) :
    c.nextId ≤ next.nextId := by
  rcases fails.origin with ⟨_, _, _, same, _⟩ | ⟨_, _, _, grows, _⟩ <;> omega

/-- A read error writes nothing. -/
theorem ReadFails.written
    {c next : ServerConnection}
    {req : Nat}
    (fails : ReadFails c next req) :
    next.written = c.written := by
  rcases fails.origin with ⟨_, _, _, _, trace, _⟩ | ⟨_, _, _, _, trace, _⟩ <;>
    simp [ServerConnection.written, trace, piece?]

theorem onReadError_next
    {c next : ServerConnection}
    {error : ErrorCode}
    {frames : List Frame}
    (executed : c.onReadError error = .next next frames) :
    ∃ req, frames = [.requestError req error] ∧ ReadFails c next req := by
  cases last : c.requests.getLast? with
  | none =>
      have empty : c.requests = [] := by simpa using last
      simp [onReadError, stopIdleTimer, empty, newRequest, append] at executed
      obtain ⟨rfl, rfl⟩ := executed
      refine ⟨c.nextId, rfl, ?_⟩
      constructor <;>
        simp +contextual [setRequest, empty]
  | some req =>
      cases done : (c.store req).isDone with
      | true =>
          simp [onReadError, stopIdleTimer, last, done, newRequest,
            append] at executed
          obtain ⟨rfl, rfl⟩ := executed
          refine ⟨c.nextId, rfl, ?_⟩
          constructor <;>
            simp +contextual [setRequest, last, Done, done]
      | false =>
          simp [onReadError, stopIdleTimer, last, done] at executed
          obtain ⟨rfl, rfl⟩ := executed
          refine ⟨req, rfl, ?_⟩
          constructor <;>
            simp +contextual [setRequest, last, Done, done]

/-! ## Responding -/

theorem respond_next
    {c next : ServerConnection}
    {req : Nat}
    {response : ServerResponse}
    {frames : List Frame}
    (executed : c.respond req response = .next next frames) :
    c.Attached req ∧ ¬ c.Responded req ∧
      next = c.takeResponse req response ∧
      ∃ front rest,
        c.requests = front :: rest ∧
          (front = req ∧ frames = [.writeNextResponse] ∨
            front ≠ req ∧ frames = []) := by
  unfold respond at executed
  split at executed
  · cases executed
  · rename_i attached
    split at executed
    · cases executed
    · rename_i unanswered
      have sameDeque :
          (c.takeResponse req response).requests = c.requests := rfl
      refine ⟨by simpa [Attached] using attached,
        by simpa [Responded] using unanswered, ?_⟩
      simp only [sameDeque] at executed
      split at executed
      · cases executed
      · rename_i front rest shape
        split at executed
        · rename_i isFront
          cases executed
          exact ⟨rfl, front, rest, shape, Or.inl ⟨isFront, rfl⟩⟩
        · rename_i notFront
          cases executed
          exact ⟨rfl, front, rest, shape, Or.inr ⟨notFront, rfl⟩⟩

theorem responded_takeResponse
    (c : ServerConnection)
    (req : Nat)
    (response : ServerResponse)
    (other : Nat) :
    (c.takeResponse req response).Responded other ↔
      other = req ∨ c.Responded other := by
  by_cases same : other = req <;>
    simp [Responded, takeResponse, emit, setResponse, setRequest, same]

theorem responded_setResponse
    (c : ServerConnection)
    (req : Nat)
    (response : ServerResponse)
    {stored : ServerResponse}
    (isStored : (c.store req).response = some stored)
    (other : Nat) :
    (c.setResponse req response).Responded other ↔ c.Responded other := by
  by_cases same : other = req <;> simp [Responded, same, isStored]

/-- The state when the head of a response to the first request has been written. -/
inductive WritesHead
    (c : ServerConnection)
    (req : Nat)
    (rest : List Nat)
    (response : ServerResponse) :
    ServerConnection → Prop where
  | keepAlive :
      response.keepAlive = true →
      (c.store req).headers.keepAlive = true →
      WritesHead c req rest response (c.writeHead req response)
  | closing :
      rest = [] →
      WritesHead c req rest response ((c.writeHead req response).startClosing req)

/--
The outcomes of `write_next_response`: the response is finished, or its captured
chunks are flushed, or the requests behind it are dropped first.
-/
inductive WritesResponse
    (c : ServerConnection)
    (req : Nat)
    (rest : List Nat)
    (given : ServerResponse) :
    ServerConnection → List Frame → Prop where
  | finish {middle : ServerConnection} :
      WritesHead c req rest (c.prepared given).withoutTmpChunks middle →
      given.completed = true →
      WritesResponse c req rest given middle [.finishRequest]
  | flush {middle : ServerConnection} :
      WritesHead c req rest (c.prepared given).withoutTmpChunks middle →
      given.completed = false →
      WritesResponse c req rest given
        (middle.writeChunks req (c.prepared given).tmpChunks) []
  | hold :
      rest ≠ [] →
      given.keepAlive = false ∨ (c.store req).headers.keepAlive = false →
      WritesResponse c req rest given
        { (c.writeHead req (c.prepared given).withoutTmpChunks).startClosing
            req with
          requests := rest }
        [.dropRequests (some (.http .pipelineCanceled))
          (.writeNextResponse req (c.prepared given).tmpChunks)]

theorem completed_withoutTmpChunks (response : ServerResponse) :
    response.withoutTmpChunks.completed = response.completed := by
  unfold ServerResponse.withoutTmpChunks
  split <;> rfl

/-- A response is serialised with the keep-alive that it was accepted with. -/
theorem keepAlive_prepared (c : ServerConnection) (given : ServerResponse) :
    (c.prepared given).withoutTmpChunks.keepAlive = given.keepAlive := by
  unfold ServerResponse.withoutTmpChunks
  split <;> rfl

theorem completed_writeHead
    (c : ServerConnection)
    (req : Nat)
    (response : ServerResponse) :
    ((c.writeHead req response).store req).responseCompleted =
      response.completed := by
  simp [writeHead, write, setResponse, ServerRequest.responseCompleted,
    setRequest]

theorem store_startClosing
    (c : ServerConnection)
    (req : Nat) :
    (c.startClosing req).store = c.store := by
  simp only [startClosing]
  split <;> rfl

theorem store_writeChunks
    (c : ServerConnection)
    (req : Nat)
    (chunks : List Data) :
    (c.writeChunks req chunks).store = c.store := by
  induction chunks generalizing c with
  | nil =>
      rfl
  | cons data rest inductionHypothesis =>
      exact (inductionHypothesis _).trans rfl

/-- The pieces written by `writeChunks`. -/
theorem written_writeChunks
    (c : ServerConnection)
    (req : Nat)
    (chunks : List Data) :
    (c.writeChunks req chunks).written =
      c.written ++ chunks.map (.chunk req) := by
  induction chunks generalizing c with
  | nil =>
      simp [writeChunks]
  | cons data rest inductionHypothesis =>
      simp [writeChunks, inductionHypothesis]

theorem responded_writeHead
    (c : ServerConnection)
    {req : Nat}
    (response : ServerResponse)
    (responded : c.Responded req)
    (other : Nat) :
    (c.writeHead req response).Responded other ↔ c.Responded other := by
  unfold Responded at responded
  by_cases same : other = req
  · subst other
    simp [Responded, writeHead, write, setResponse, setRequest, responded]
  · simp [Responded, writeHead, write, setResponse, setRequest, same]

theorem writeNextResponse_next
    {c next : ServerConnection}
    {frames : List Frame}
    (executed : c.writeNextResponse = .next next frames) :
    ∃ req rest given,
      c.requests = req :: rest ∧
        (c.store req).response = some given ∧
        WritesResponse c req rest given next frames := by
  unfold writeNextResponse at executed
  split at executed
  · cases executed
  · rename_i req rest shape
    split at executed
    · cases executed
    · rename_i given stored
      refine ⟨req, rest, given, shape, stored, ?_⟩
      have completed :
          ((c.writeHead req
            (c.prepared given).withoutTmpChunks).store
              req).responseCompleted = given.completed := by
        rw [completed_writeHead, completed_withoutTmpChunks]
        rfl
      have flushed :
          ∀ middle,
            WritesHead c req rest (c.prepared given).withoutTmpChunks middle →
            middle.flushResponse req (c.prepared given).tmpChunks =
              .next next frames →
            WritesResponse c req rest given next frames := by
        intro middle headed flushed
        have middleCompleted :
            (middle.store req).responseCompleted = given.completed := by
          cases headed with
          | keepAlive _ _ =>
              exact completed
          | closing _ =>
              rw [store_startClosing]
              exact completed
        unfold flushResponse at flushed
        split at flushed
        · rename_i isCompleted
          cases flushed
          exact .finish headed (middleCompleted.symm.trans isCompleted)
        · rename_i notCompleted
          cases flushed
          exact .flush headed
            (middleCompleted.symm.trans (Bool.eq_false_iff.mpr notCompleted))
      have headers :
          ((c.writeHead req (c.prepared given).withoutTmpChunks).store
            req).headers = (c.store req).headers := by
        simp [writeHead, write, setResponse, setRequest,
          ServerRequest.headers]
      have keepAlive :
          (c.prepared given).withoutTmpChunks.keepAlive = given.keepAlive := by
        unfold ServerResponse.withoutTmpChunks
        split <;> rfl
      by_cases last :
          (!(c.prepared given).withoutTmpChunks.keepAlive ||
            !((c.writeHead req (c.prepared given).withoutTmpChunks).store
              req).headers.keepAlive) = true
      · simp only [last, ↓reduceIte] at executed
        split at executed
        · rename_i empty
          exact flushed _ (.closing empty) executed
        · rename_i nonempty
          cases executed
          refine .hold nonempty ?_
          rw [headers, keepAlive] at last
          simpa using last
      · simp only [last] at executed
        simp only [Bool.or_eq_true, Bool.not_eq_eq_eq_not, Bool.not_true,
          not_or, Bool.not_eq_false] at last
        rw [headers] at last
        exact flushed _ (.keepAlive last.1 last.2) executed

/-- The outcomes of `finish_request`: it waits for the request, or cleans it up. -/
theorem finishRequest_next
    {c next : ServerConnection}
    {frames : List Frame}
    (executed : c.finishRequest = .next next frames) :
    ∃ req rest,
      c.requests = req :: rest ∧ c.Completed req ∧
        (¬ c.Done req ∧
            next =
              c.setRequest req { c.store req with finishOnReceive := true } ∧
            frames = [] ∨
          c.Done req ∧
            next = c.cleanupRequest req rest ∧
            frames = [.fire (.finishEvent req), .finishReturn]) := by
  unfold finishRequest at executed
  split at executed
  · cases executed
  · rename_i req rest shape
    split at executed
    · cases executed
    · rename_i completed
      split at executed
      · rename_i notDone
        cases executed
        exact ⟨req, rest, shape, by simpa [Completed] using completed,
          Or.inl ⟨by simpa [Done] using notDone, rfl, rfl⟩⟩
      · rename_i done
        cases executed
        exact ⟨req, rest, shape, by simpa [Completed] using completed,
          Or.inr ⟨by simpa [Done] using done, rfl, rfl⟩⟩

/-- A chunk given for the request is accepted. -/
def Accepts (c : ServerConnection) (req : Nat) : Prop :=
  c.Attached req ∧ c.Responded req ∧ ¬ c.Completed req

instance (c : ServerConnection) (req : Nat) : Decidable (c.Accepts req) :=
  inferInstanceAs (Decidable (_ ∧ _))

/-- A chunk is taken only for a response that is accepted. -/
theorem responseSend_next
    {c next : ServerConnection}
    {req : Nat}
    {send : ServerResponse → Step}
    {frames : List Frame}
    (executed : c.responseSend req send = .next next frames) :
    next = c ∧ frames = [] ∨
      ∃ response,
        (c.store req).response = some response ∧
          c.Accepts req ∧ send response = .next next frames := by
  unfold responseSend at executed
  split at executed
  · cases executed
    exact Or.inl ⟨rfl, rfl⟩
  · rename_i response stored
    split at executed
    · cases executed
    · rename_i unfinished
      split at executed
      · rename_i attached
        refine Or.inr ⟨response, stored, ⟨attached, ?_, ?_⟩, executed⟩
        · simp [Responded, stored]
        · simpa [Completed, ServerRequest.responseCompleted,
            stored] using unfinished
      · cases executed
        exact Or.inl ⟨rfl, rfl⟩

/-! ## Plain code -/

/-- Observations that say nothing about the deque, the parser or the data. -/
def isPlainEvent : Event → Bool
  | .fired _ => true
  | .readIgnored => true
  | .closed _ => true
  | .upgraded _ => true
  | .removed => true
  | .threw _ => true
  | _ => false

/-- The frames that plain code calls. -/
def isPlainFrame : Frame → Bool
  | .callback _ => true
  | .fire _ => true
  | .dropRequests _ (.doClose _) => true
  | _ => false

/-- The second state differs from the first in its stream and its timer only. -/
structure Plain (c next : ServerConnection) : Prop where
  requests : next.requests = c.requests
  store : next.store = c.store
  nextId : next.nextId = c.nextId
  parsing : next.parsing = c.parsing
  closing : next.closing = c.closing
  stopping : next.stopping = c.stopping
  silent : c.Silent → next.Silent
  trace :
    ∃ events,
      next.trace = c.trace ++ events ∧
        ∀ event ∈ events, isPlainEvent event = true

/-- The code changes the stream and the timer only, and calls plain frames. -/
def PlainStep (c : ServerConnection) : Step → Prop
  | .next next frames =>
      Plain c next ∧ ∀ frame ∈ frames, isPlainFrame frame = true
  | .raise next => Plain c next
  | .fault _ => True

namespace Plain

theorem refl (c : ServerConnection) : Plain c c :=
  ⟨rfl, rfl, rfl, rfl, rfl, rfl, id, [], by simp⟩

theorem trans
    {first second third : ServerConnection}
    (one : Plain first second)
    (two : Plain second third) :
    Plain first third where
  requests := two.requests.trans one.requests
  store := two.store.trans one.store
  nextId := two.nextId.trans one.nextId
  parsing := two.parsing.trans one.parsing
  closing := two.closing.trans one.closing
  stopping := two.stopping.trans one.stopping
  silent silent := two.silent (one.silent silent)
  trace := by
    obtain ⟨early, earlyShape, earlyPlain⟩ := one.trace
    obtain ⟨late, lateShape, latePlain⟩ := two.trace
    refine ⟨early ++ late, by simp [earlyShape, lateShape], ?_⟩
    intro event member
    rcases List.mem_append.mp member with isEarly | isLate
    · exact earlyPlain event isEarly
    · exact latePlain event isLate

theorem emit
    (c : ServerConnection)
    {event : Event}
    (plain : isPlainEvent event = true) :
    Plain c (c.emit event) :=
  ⟨rfl, rfl, rfl, rfl, rfl, rfl, id, [event], rfl, by simpa using plain⟩

theorem readIgnore (c : ServerConnection) : Plain c c.readIgnore :=
  ⟨rfl, rfl, rfl, rfl, rfl, rfl,
    fun _ => by simp [Silent, canRead, ServerConnection.readIgnore],
    [.readIgnored], rfl, by simp [isPlainEvent]⟩

/-- A new stream and a new timer. -/
theorem setStream
    (c : ServerConnection)
    (stream : Stream)
    (idleTimer : Option Bool)
    (silent :
      c.Silent →
      ({ c with
        stream := stream, idleTimer := idleTimer } : ServerConnection).Silent) :
    Plain c { c with stream := stream, idleTimer := idleTimer } :=
  ⟨rfl, rfl, rfl, rfl, rfl, rfl, silent, [], by simp⟩

end Plain

theorem PlainStep.after
    {c middle : ServerConnection}
    {step : Step}
    (plain : Plain c middle)
    (plainStep : PlainStep middle step) :
    PlainStep c step := by
  cases step with
  | next next frames =>
      exact ⟨plain.trans plainStep.1, plainStep.2⟩
  | raise next =>
      exact plain.trans plainStep
  | fault reason =>
      trivial

theorem plain_doClose
    (c : ServerConnection)
    (error : Option ErrorCode)
    (soft : Bool) :
    PlainStep c (c.doClose error soft) := by
  refine ⟨?_, by simp [isPlainFrame]⟩
  have closed : Plain c (c.emit (.closed soft)) := Plain.emit c rfl
  cases soft with
  | true =>
      exact closed.trans (Plain.setStream _ _ _ id)
  | false =>
      exact closed.trans
        (Plain.setStream _ _ _ fun _ => by simp [Silent, canRead])

theorem doClose_next
    {c next : ServerConnection}
    {error : Option ErrorCode}
    {soft : Bool}
    {frames : List Frame}
    (executed : c.doClose error soft = .next next frames) :
    next.Closed ∧ frames = [.dropRequests error (.doClose soft)] := by
  cases executed
  cases soft <;> simp [Closed, emit, stopIdleTimer, isEnd]

theorem plain_remove (c : ServerConnection) : PlainStep c c.remove :=
  ⟨Plain.emit c rfl, by simp [isPlainFrame]⟩

theorem plain_checkIfIdle (c : ServerConnection) :
    PlainStep c c.checkIfIdle := by
  unfold checkIfIdle
  split
  · split
    · trivial
    · split
      · exact ⟨Plain.setStream c _ _ id, by simp⟩
      · exact ⟨Plain.refl c, by simp⟩
  · exact ⟨Plain.refl c, by simp⟩

/-- `check_if_idle` changes the timer only. -/
theorem checkIfIdle_next
    {c next : ServerConnection}
    {frames : List Frame}
    (executed : c.checkIfIdle = .next next frames) :
    frames = [] ∧ next.trace = c.trace := by
  unfold checkIfIdle at executed
  split at executed
  · split at executed
    · cases executed
    · split at executed <;> cases executed <;> exact ⟨rfl, rfl⟩
  · cases executed
    exact ⟨rfl, rfl⟩

theorem plain_dropNotify
    (c : ServerConnection)
    (req : Nat)
    (error : Option ErrorCode) :
    PlainStep c (c.dropNotify req error) := by
  simp only [dropNotify]
  split
  · split <;> exact ⟨Plain.refl c, by simp [isPlainFrame]⟩
  · split <;> exact ⟨Plain.refl c, by simp [isPlainFrame]⟩

/-- The frames whose code is plain. -/
def runsPlain : Frame → Bool
  | .callback _ => true
  | .fire _ => true
  | .readIgnore => true
  | .dropNotify _ _ => true
  | .upgradeReturn => true
  | _ => false

theorem plain_code
    (c : ServerConnection)
    {frame : Frame}
    (runs : runsPlain frame = true) :
    PlainStep c (code frame c) := by
  cases frame with
  | callback fired =>
      exact ⟨Plain.refl c, by simp⟩
  | fire fired =>
      exact ⟨Plain.emit c rfl, by simp [isPlainFrame]⟩
  | readIgnore =>
      exact ⟨Plain.readIgnore c, by simp⟩
  | dropNotify req error =>
      exact plain_dropNotify c req error
  | upgradeReturn =>
      exact plain_remove c
  | _ =>
      simp [runsPlain] at runs

/-- The entry points whose code is plain. -/
def entersPlain : Input → Bool
  | .drop _ => true
  | .close _ => true
  | .shutdown _ => true
  | .onEof => true
  | .onWrite _ => true
  | .onShutdown => true
  | .onConnectionError _ => true
  | .idleTimeout => true
  | _ => false

theorem plain_accept
    {input : Input}
    {frame : Option Frame}
    {c : ServerConnection}
    {step : Step}
    (enters : entersPlain input = true)
    (accepted : accept input frame c = some step) :
    PlainStep c step := by
  have stream :
      ∀ (stream : Stream) step,
        (c.Silent →
          ({ c with stream := stream } : ServerConnection).Silent) →
        PlainStep { c with stream := stream } step →
        PlainStep c step :=
    fun stream _ silent =>
      PlainStep.after (Plain.setStream c stream c.idleTimer silent)
  cases input with
  | drop req =>
      cases accepted
      unfold requestDrop
      split
      · exact ⟨Plain.refl c, by simp⟩
      · exact plain_doClose c _ _
  | close error | shutdown error =>
      cases accepted
      exact plain_doClose c _ _
  | onEof =>
      cases frame <;> simp only [accept] at accepted
      · split at accepted
        · cases accepted
          exact stream _ _ (by simp [Silent, canRead]) (plain_doClose _ _ _)
        · cases accepted
      · cases accepted
  | onWrite error =>
      cases frame <;> simp only [accept] at accepted
      · split at accepted
        · cases accepted
          cases error with
          | none =>
              exact stream _ _ (by simp [Silent, canRead])
                (plain_checkIfIdle _)
          | some error =>
              exact stream _ _ (by simp [Silent, canRead])
                (plain_doClose _ _ _)
        · cases accepted
      · cases accepted
  | onShutdown =>
      cases frame <;> simp only [accept] at accepted
      · split at accepted
        · cases accepted
          exact
            (plain_remove _).after
              (Plain.setStream c _ _ fun _ => by simp [Silent, canRead])
        · cases accepted
      · cases accepted
  | onConnectionError error =>
      cases frame <;> simp only [accept] at accepted
      · split at accepted
        · cases accepted
          exact plain_doClose c _ _
        · cases accepted
      · cases accepted
  | idleTimeout =>
      cases frame <;> simp only [accept] at accepted
      · split at accepted
        · cases accepted
          unfold onIdleTimeout
          split
          · exact (plain_doClose _ _ _).after
              (Plain.setStream c c.stream (some false) id)
          · trivial
        · cases accepted
      · cases accepted
  | _ =>
      simp [entersPlain] at enters

/-- Plain entry points do nothing, remove the connection or close it. -/
theorem accept_plain
    {input : Input}
    {top : Option Frame}
    {c next : ServerConnection}
    {frames : List Frame}
    (enters : entersPlain input = true)
    (accepted : accept input top c = some (.next next frames)) :
    ∃ middle,
      Plain c middle ∧ middle.trace = c.trace ∧
        (next = middle ∧ frames = [] ∨
          middle.remove = .next next frames ∨
          ∃ error soft, middle.doClose error soft = .next next frames) := by
  have streamed :
      ∀ stream : Stream,
        (c.Silent →
          ({ c with stream := stream } : ServerConnection).Silent) →
        Plain c { c with stream := stream } :=
    fun stream silent => Plain.setStream c stream c.idleTimer silent
  cases input with
  | drop req =>
      simp only [accept, Option.some.injEq, requestDrop] at accepted
      split at accepted
      · cases accepted
        exact ⟨c, Plain.refl c, rfl, Or.inl ⟨rfl, rfl⟩⟩
      · exact ⟨c, Plain.refl c, rfl, Or.inr (Or.inr ⟨_, _, accepted⟩)⟩
  | close error | shutdown error =>
      exact ⟨c, Plain.refl c, rfl,
        Or.inr (Or.inr ⟨_, _, Option.some.inj accepted⟩)⟩
  | onEof =>
      cases top <;> simp only [accept] at accepted
      · split at accepted
        · exact ⟨_, streamed { c.stream with ended := true }
              (by simp [Silent, canRead]), rfl,
            Or.inr (Or.inr ⟨_, _, Option.some.inj accepted⟩)⟩
        · cases accepted
      · cases accepted
  | onConnectionError error =>
      cases top <;> simp only [accept] at accepted
      · split at accepted
        · exact ⟨c, Plain.refl c, rfl,
            Or.inr (Or.inr ⟨_, _, Option.some.inj accepted⟩)⟩
        · cases accepted
      · cases accepted
  | onWrite error =>
      cases top <;> simp only [accept] at accepted
      · split at accepted
        · have written :
              Plain c
                { c with
                  stream := { c.stream with
                    writeQueue := c.stream.writeQueue - 1 } } :=
            streamed _ (by simp [Silent, canRead])
          cases error with
          | none =>
              have idled := Option.some.inj accepted
              have plain := plain_checkIfIdle
                { c with
                  stream := { c.stream with
                    writeQueue := c.stream.writeQueue - 1 } }
              obtain ⟨rfl, trace⟩ := checkIfIdle_next idled
              rw [onWrite] at idled
              rw [idled] at plain
              exact ⟨next, written.trans plain.1, trace, Or.inl ⟨rfl, rfl⟩⟩
          | some error =>
              exact ⟨_, written, rfl,
                Or.inr (Or.inr ⟨_, _, Option.some.inj accepted⟩)⟩
        · cases accepted
      · cases accepted
  | onShutdown =>
      cases top <;> simp only [accept] at accepted
      · split at accepted
        · exact ⟨_, Plain.setStream c { c.stream with listener := false }
              (c.idleTimer.map fun _ => false)
              fun _ => by simp [Silent, canRead],
            rfl, Or.inr (Or.inl (Option.some.inj accepted))⟩
        · cases accepted
      · cases accepted
  | idleTimeout =>
      cases top <;> simp only [accept, onIdleTimeout] at accepted
      · split at accepted
        · split at accepted
          · exact ⟨_, Plain.setStream c c.stream (some false) id, rfl,
              Or.inr (Or.inr ⟨_, _, Option.some.inj accepted⟩)⟩
          · cases accepted
        · cases accepted
      · cases accepted
  | _ =>
      simp [entersPlain] at enters

/-- Plain entry points fire no callback but `stop_event`. -/
theorem accept_closing
    {input : Input}
    {top : Option Frame}
    {c next : ServerConnection}
    {frames : List Frame}
    (enters : entersPlain input = true)
    (accepted : accept input top c = some (.next next frames)) :
    ∀ frame ∈ frames,
      frame = .callback .stopEvent ∨
        ∃ error soft, frame = .dropRequests error (.doClose soft) := by
  obtain ⟨_, _, _, ⟨_, rfl⟩ | removed | ⟨error, soft, closed⟩⟩ :=
    accept_plain enters accepted
  · simp
  · cases removed
    simp
  · obtain ⟨_, rfl⟩ := doClose_next closed
    intro frame member
    exact Or.inr ⟨error, soft, by simpa using member⟩

/-- The outcomes of `finish_request` after `cleanup_request`. -/
theorem finishReturn_next
    {c next : ServerConnection}
    {frames : List Frame}
    (executed : c.finishReturn = .next next frames) :
    c.requests = [] ∧ c.doClose none true = .next next frames ∨
      c.closing = false ∧ c.stopping = false ∧
        (Plain c next ∧ next.trace = c.trace ∧ frames = [] ∧
            (∀ req ∈ c.requests.head?, ¬ c.Responded req) ∨
          next = c ∧ frames = [.writeNextResponse] ∧
            ∃ req rest, c.requests = req :: rest ∧ c.Responded req) := by
  unfold finishReturn at executed
  split at executed
  · split at executed
    · rename_i empty
      exact Or.inl ⟨empty, executed⟩
    · cases executed
  · rename_i going
    simp only [Bool.or_eq_true, not_or, Bool.not_eq_true] at going
    refine Or.inr ⟨going.1, going.2, ?_⟩
    split at executed
    · rename_i empty
      have plain := plain_checkIfIdle c
      rw [executed] at plain
      obtain ⟨rfl, trace⟩ := checkIfIdle_next executed
      exact Or.inl ⟨plain.1, trace, rfl, by simp [empty]⟩
    · rename_i req rest shape
      split at executed
      · rename_i responded
        cases executed
        exact Or.inr ⟨rfl, rfl, req, rest, shape, responded⟩
      · rename_i unanswered
        cases executed
        exact Or.inl ⟨Plain.refl c, rfl, rfl,
          by simpa [shape, Responded] using unanswered⟩

/-- `finish_request` goes on with the next response, or its code is plain. -/
theorem finishReturn_plain
    {c next : ServerConnection}
    {frames : List Frame}
    (executed : c.finishReturn = .next next frames) :
    PlainStep c (.next next frames) ∨
      c.closing = false ∧ c.stopping = false ∧
        next = c ∧ frames = [.writeNextResponse] := by
  rcases finishReturn_next executed with
    ⟨_, closed⟩ | ⟨closing, stopping, ⟨plain, _, rfl, _⟩ | ⟨rfl, rfl, _⟩⟩
  · left
    rw [← closed]
    exact plain_doClose c _ _
  · exact Or.inl ⟨plain, by simp⟩
  · exact Or.inr ⟨closing, stopping, rfl, rfl⟩

/-- The loop of `on_read` between callbacks: no part of the state changes. -/
theorem reader_next
    {c next : ServerConnection}
    {frame : Frame}
    {frames : List Frame}
    (between :
      (∃ req done buf, frame = .routed req done buf) ∨
        ∃ req done buf, frame = .received req done buf)
    (executed : code frame c = .next next frames) :
    Plain c next ∧ Frame.writeNextResponse ∉ frames ∧
      ∀ error returns, Frame.dropRequests error returns ∉ frames := by
  rcases between with ⟨req, done, buf, rfl⟩ | ⟨req, done, buf, rfl⟩
  · simp only [code, routed] at executed
    split at executed
    · cases executed
      exact ⟨Plain.refl c, by simp, by simp⟩
    · split at executed <;> cases executed <;>
        exact ⟨Plain.refl c, by simp, by simp⟩
  · simp only [code, received] at executed
    split at executed
    · cases executed
      exact ⟨Plain.refl c, by simp, by simp⟩
    · split at executed
      · cases executed
        exact ⟨Plain.refl c, by simp, by simp⟩
      · split at executed <;> cases executed
        · exact ⟨Plain.readIgnore c, by simp, by simp⟩
        · exact ⟨Plain.refl c, by simp, by simp⟩

/-! ## Exceptions -/

theorem respond_raise
    {c next : ServerConnection}
    {req : Nat}
    {response : ServerResponse}
    (executed : c.respond req response = .raise next) :
    c.Responded req ∧
      next =
        c.emit
          (.threw (.httpError "double response for request given")) := by
  unfold respond at executed
  split at executed
  · cases executed
  · split at executed
    · rename_i responded
      cases executed
      exact ⟨responded, rfl⟩
    · dsimp only at executed
      split at executed
      · cases executed
      · split at executed <;> cases executed

theorem flushResponse_ne_raise
    (c next : ServerConnection)
    (req : Nat)
    (tmpChunks : List Data) :
    c.flushResponse req tmpChunks ≠ .raise next := by
  unfold flushResponse
  split <;> simp

theorem writeNextResponse_ne_raise
    (c next : ServerConnection) :
    c.writeNextResponse ≠ .raise next := by
  unfold writeNextResponse
  split
  · simp
  · split
    · simp
    · simp only
      split
      · split
        · exact flushResponse_ne_raise _ _ _ _
        · simp
      · exact flushResponse_ne_raise _ _ _ _

theorem checkIfIdle_ne_raise
    (c next : ServerConnection) :
    c.checkIfIdle ≠ .raise next := by
  unfold checkIfIdle
  split
  · split
    · simp
    · split <;> simp
  · simp

/-- Exceptions leave only the entry points: the code between callbacks throws none. -/
theorem code_ne_raise
    (frame : Frame)
    (c next : ServerConnection) :
    code frame c ≠ .raise next := by
  cases frame with
  | callback _ | fire _ | readIgnore =>
      simp [code]
  | onRead buf =>
      cases buf with
      | nil =>
          simp [code, onReadLoop]
      | cons result rest =>
          cases result <;> simp only [code, onReadLoop] <;>
            (try split) <;> (try split) <;> simp
  | routed req done buf =>
      simp only [code, routed]
      split
      · simp
      · split <;> simp
  | received req done buf =>
      simp only [code, received]
      split
      · simp
      · split
        · simp
        · split <;> simp
  | requestError req error =>
      simp [code, requestError]
  | requestErrorReturn req =>
      simp only [code, requestErrorReturn]
      split
      · rename_i unanswered
        intro executed
        have responded := (respond_raise executed).1
        simp [Responded, unanswered] at responded
      · split <;> simp
  | writeNextResponse =>
      exact writeNextResponse_ne_raise c next
  | finishRequest =>
      simp only [code, finishRequest]
      split
      · simp
      · split
        · simp
        · split <;> simp
  | finishReturn =>
      simp only [code, finishReturn]
      split
      · split <;> simp [doClose]
      · split
        · exact checkIfIdle_ne_raise c next
        · split <;> simp
  | dropRequests error returns =>
      simp only [code, dropRequests]
      split
      · simp
      · split
        · simp
        · simp [remove]
        · exact flushResponse_ne_raise _ _ _ _
  | dropNotify req error =>
      simp only [code, dropNotify]
      split
      · split <;> simp
      · split <;> simp
  | upgradeReturn =>
      simp [code, remove]

theorem sendContinue_raise
    {c next : ServerConnection}
    {req : Nat}
    (executed : c.sendContinue req = .raise next) :
    ∃ exception, next = c.emit (.threw exception) := by
  unfold sendContinue at executed
  split at executed
  · cases executed
  · dsimp only at executed
    split at executed
    · cases executed
    · split at executed
      · cases executed
      · split at executed
        · cases executed
          exact ⟨_, rfl⟩
        · cases executed

theorem responseSend_raise
    {c next : ServerConnection}
    {req : Nat}
    {send : ServerResponse → Step}
    (sends : ∀ response, send response ≠ .raise next)
    (executed : c.responseSend req send = .raise next) :
    ∃ exception, next = c.emit (.threw exception) := by
  unfold responseSend at executed
  split at executed
  · cases executed
  · split at executed
    · cases executed
      exact ⟨_, rfl⟩
    · split at executed
      · exact (sends _ executed).elim
      · cases executed

/-- An exception leaves the state as it was. -/
theorem accept_raise
    {input : Input}
    {frame : Option Frame}
    {c next : ServerConnection}
    (accepted : accept input frame c = some (.raise next)) :
    ∃ exception, next = c.emit (.threw exception) := by
  cases input with
  | respond req response =>
      simp only [accept] at accepted
      split at accepted
      · cases accepted
      · simp only [Option.some.injEq, requestRespond] at accepted
        split at accepted
        · exact ⟨_, (respond_raise accepted).2⟩
        · cases accepted
  | sendContinue req =>
      simp only [accept, Option.some.injEq, requestSendContinue] at accepted
      split at accepted
      · exact sendContinue_raise accepted
      · cases accepted
  | sendChunk req data =>
      simp only [accept, Option.some.injEq] at accepted
      refine responseSend_raise ?_ accepted
      intro response
      simp only [sendChunk]
      split
      · simp
      · split
        · simp
        · split <;> simp
  | sendFinalChunk req data =>
      simp only [accept, Option.some.injEq] at accepted
      refine responseSend_raise ?_ accepted
      intro response
      simp only [sendFinalChunk]
      split
      · simp
      · split <;> simp
  | drop req =>
      simp only [accept, Option.some.injEq, requestDrop] at accepted
      split at accepted <;> simp [doClose] at accepted
  | upgrade req =>
      simp only [accept, Option.some.injEq, requestUpgrade] at accepted
      split at accepted
      · cases accepted
      · split at accepted
        · cases accepted
        · unfold ServerConnection.upgrade at accepted
          split at accepted
          · cases accepted
          · cases accepted
            exact ⟨_, rfl⟩
  | enablePartial req =>
      simp [accept] at accepted
  | close error | shutdown error =>
      simp [accept, doClose] at accepted
  | gracefulStop =>
      simp only [accept, Option.some.injEq, gracefulStop] at accepted
      split at accepted <;> simp [doClose] at accepted
  | onRead buf =>
      cases frame <;> simp [accept] at accepted
  | onReadError error =>
      cases frame <;> simp only [accept] at accepted
      · split at accepted
        · simp only [onReadError, Option.some.injEq] at accepted
          split at accepted <;> cases accepted
        · cases accepted
      · cases accepted
  | onEof | onConnectionError error =>
      cases frame <;> simp [accept, doClose] at accepted
  | onWrite error =>
      cases frame <;> simp only [accept] at accepted
      · split at accepted
        · simp only [Option.some.injEq] at accepted
          cases error with
          | none =>
              exact (checkIfIdle_ne_raise _ _ accepted).elim
          | some error =>
              simp [onWrite, doClose] at accepted
        · cases accepted
      · cases accepted
  | onShutdown =>
      cases frame <;> simp [accept, onShutdown, remove] at accepted
  | idleTimeout =>
      cases frame <;> simp only [accept, onIdleTimeout] at accepted
      · split at accepted
        · split at accepted <;> simp [doClose] at accepted
        · cases accepted
      · cases accepted

/-- The obligations of an invariant of the connection. -/
theorem preserves_of
    {guard : Config → Label → Prop}
    {invariant : ServerConnection → List Frame → Prop}
    (tick :
      ∀ frame rest c next frames,
        isCallback frame = false →
        guard ⟨c, frame :: rest, none⟩ .tick →
        invariant c (frame :: rest) →
        code frame c = .next next frames →
        invariant next (frames ++ rest))
    (ret :
      ∀ callback rest c,
        invariant c (.callback callback :: rest) → invariant c rest)
    (input :
      ∀ input stack c next frames,
        machine.atBoundary stack = true →
        guard ⟨c, stack, none⟩ (.input input) →
        invariant c stack →
        accept input stack.head? c = some (.next next frames) →
        invariant next (frames ++ stack))
    (threw :
      ∀ stack c exception,
        machine.atBoundary stack = true →
        invariant c stack →
        invariant (c.emit (.threw exception)) stack) :
    machine.Preserves guard invariant where
  tick := tick
  tickRaise frame rest c next _ _ _ executed :=
    (code_ne_raise frame c next executed).elim
  ret frame rest c callback holds := by
    cases frame with
    | callback fired =>
        exact ret fired rest c holds
    | _ =>
        simp [machine, isCallback] at callback
  throw _ _ _ _ throws := by
    simp [machine] at throws
  input := input
  inputRaise called stack c next boundary _ holds accepted := by
    obtain ⟨exception, rfl⟩ := accept_raise accepted
    exact threw stack c exception boundary holds

end UniEventHttp.ServerConnection
