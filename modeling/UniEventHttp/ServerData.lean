import UniEventHttp.ServerSuspension

namespace UniEventHttp.ServerConnection

/-!
# The body data of a response

The data given for a response is its initial body and the arguments of the chunk
functions, in call order.  It is written piece by piece: at once for the first
request of the deque, and otherwise when `write_next_response` comes to the
request.  The two ways agree as long as a chunk is never written before the head
of its response, and never captured after it; and a final chunk is only captured
as the mark that the response is complete.
-/

/-- The body data that an observation gives for a request. -/
def givenBy (req : Nat) : Event → Data
  | .responded other response =>
      if other = req then response.body.flatten else []
  | .gaveChunk other data => if other = req then data else []
  | .gaveFinalChunk other data => if other = req then data else []
  | _ => []

/-- The body data given for a request: initial body, chunks, final chunk. -/
def given (c : ServerConnection) (req : Nat) : Data :=
  c.trace.flatMap (givenBy req)

/-- The body data written for a request. -/
def writtenData (c : ServerConnection) (req : Nat) : Data :=
  c.written.flatMap fun piece => if piece.req = req then piece.data else []

/-- A final chunk has been given for the request. -/
def FinalGiven (c : ServerConnection) (req : Nat) : Prop :=
  ∃ data, Event.gaveFinalChunk req data ∈ c.trace

/-- The captured chunks that a suspended `write_next_response` holds. -/
def tmpChunksOf (req : Nat) : Frame → Data
  | .dropRequests _ (.writeNextResponse other tmpChunks) =>
      if other = req then tmpChunks.flatten else []
  | _ => []

/-- The captured chunks of a request that are still to be flushed. -/
def flushing (stack : List Frame) (req : Nat) : Data :=
  stack.flatMap (tmpChunksOf req)

/-- The call gives a chunk. -/
def chunkCall? : Label → Option (Nat × Data)
  | .input (.sendChunk req data) => some (req, data)
  | _ => none

/-- The call gives a final chunk. -/
def finalChunkCall? : Label → Option (Nat × Data)
  | .input (.sendFinalChunk req data) => some (req, data)
  | _ => none

/-- `finish_request` takes up no response with a body whose head has been written. -/
def TakesUpFresh (config : Config) : Prop :=
  config.stack.head? = some .finishReturn →
  config.state.closing = false ∧ config.state.stopping = false →
  ∀ req ∈ config.state.requests.head?,
    ∀ response ∈ (config.state.store req).response,
      config.state.Started req → response.body.flatten = []

/--
A chunk is given for the first request of the deque if and only if the head of
its response has been written.
-/
def ChunkInPlace (config : Config) (req : Nat) (data : Data) : Prop :=
  config.state.Accepts req →
  data ≠ [] →
  (config.state.requests.head? = some req ↔ config.state.Started req)

/--
A final chunk for the first request comes after the head; one that is not
written at once is empty, and no captured chunk of its response is waiting in a
suspended `write_next_response`.
-/
def FinalChunkInPlace (config : Config) (req : Nat) (data : Data) : Prop :=
  config.state.Accepts req →
  (config.state.requests.head? = some req → config.state.Started req) ∧
    (config.state.requests.head? ≠ some req →
      data = [] ∧ flushing config.stack req = [])

/-- The condition under which the two ways of a chunk agree. -/
def ChunksInPlace (config : Config) (label : Label) : Prop :=
  (label = .tick → TakesUpFresh config) ∧
    (∀ call ∈ chunkCall? label, ChunkInPlace config call.1 call.2) ∧
    ∀ call ∈ finalChunkCall? label, FinalChunkInPlace config call.1 call.2

instance (config : Config) : Decidable (TakesUpFresh config) :=
  inferInstanceAs (Decidable (_ → _))

instance (config : Config) (req : Nat) (data : Data) :
    Decidable (ChunkInPlace config req data) :=
  inferInstanceAs (Decidable (_ → _))

instance (config : Config) (req : Nat) (data : Data) :
    Decidable (FinalChunkInPlace config req data) :=
  inferInstanceAs (Decidable (_ → _))

instance (config : Config) (label : Label) :
    Decidable (ChunksInPlace config label) :=
  inferInstanceAs (Decidable (_ ∧ _ ∧ _))

/-- The body data of one request. -/
structure CarriedFor
    (c : ServerConnection)
    (stack : List Frame)
    (req : Nat) : Prop where
  answeredBelow : c.Responded req → req < c.nextId
  unanswered :
    ¬ c.Responded req →
    ¬ c.Started req ∧ c.given req = [] ∧ c.writtenData req = []
  waiting :
    ∀ response,
      (c.store req).response = some response →
      ¬ c.Started req →
      c.given req = response.body.flatten ∧ c.writtenData req = []
  started :
    c.Started req → c.given req = c.writtenData req ++ flushing stack req
  heldChunks : flushing stack req ≠ [] → ¬ c.Completed req
  heldStarted : req ∈ held stack → c.Started req
  ended : c.BlockWritten req → c.Completed req ∧ c.Started req

/-- The invariant of the body data. -/
structure Carried (c : ServerConnection) (stack : List Frame) : Prop where
  writeOnTop : Frame.writeNextResponse ∉ stack.tail
  writing :
    stack.head? = some .writeNextResponse →
    ∀ req response,
      c.requests.head? = some req →
      (c.store req).response = some response →
      c.Started req →
      response.body.flatten = []
  each : ∀ req, CarriedFor c stack req

/-! ## Frames -/

theorem flushing_append
    (above below : List Frame)
    (req : Nat) :
    flushing (above ++ below) req =
      flushing above req ++ flushing below req := by
  simp [flushing]

theorem flushing_of_not_held
    {stack : List Frame}
    {req : Nat}
    (notHeld : req ∉ held stack) :
    flushing stack req = [] := by
  simp only [flushing, List.flatMap_eq_nil_iff]
  intro frame member
  unfold tmpChunksOf
  split
  · rename_i other tmpChunks
    split
    · rename_i same
      subst other
      exact (notHeld (List.mem_filterMap.mpr ⟨_, member, rfl⟩)).elim
    · rfl
  · rfl

theorem flushing_inner
    {frames : List Frame}
    (inner : ∀ frame ∈ frames, isInner frame = true)
    (below : List Frame)
    (req : Nat) :
    flushing (frames ++ below) req = flushing below req := by
  have notHeld : req ∉ held frames := by
    have none := held_inner inner []
    simp only [List.append_nil] at none
    rw [none]
    simp [held]
  rw [flushing_append, flushing_of_not_held notHeld, List.nil_append]

/-! ## Steps that neither give nor write data -/

/-- The second state has the response and the data of the first for a request. -/
structure SameData
    (c next : ServerConnection)
    (req : Nat) : Prop where
  nextId : c.nextId ≤ next.nextId
  given : next.given req = c.given req
  writtenData : next.writtenData req = c.writtenData req
  started : next.Started req ↔ c.Started req
  blockWritten : next.BlockWritten req ↔ c.BlockWritten req
  response :
    ((next.store req).response.map fun response =>
        (response.body, response.completed)) =
      (c.store req).response.map fun response =>
        (response.body, response.completed)

/-- The observation neither gives nor writes data for the request. -/
def NoData (req : Nat) (event : Event) : Prop :=
  givenBy req event = [] ∧ ∀ piece, piece? event = some piece → piece.req ≠ req

namespace SameData

theorem trans
    {first second third : ServerConnection}
    {req : Nat}
    (one : SameData first second req)
    (two : SameData second third req) :
    SameData first third req where
  nextId := Nat.le_trans one.nextId two.nextId
  given := two.given.trans one.given
  writtenData := two.writtenData.trans one.writtenData
  started := two.started.trans one.started
  blockWritten := two.blockWritten.trans one.blockWritten
  response := two.response.trans one.response

/-- The data is read off the trace. -/
theorem of_trace
    {c next : ServerConnection}
    {events : List Event}
    {req : Nat}
    (nextId : c.nextId ≤ next.nextId)
    (trace : next.trace = c.trace ++ events)
    (noData : ∀ event ∈ events, NoData req event)
    (response :
      ((next.store req).response.map fun response =>
          (response.body, response.completed)) =
        (c.store req).response.map fun response =>
          (response.body, response.completed)) :
    SameData c next req := by
  have noneGiven : events.flatMap (givenBy req) = [] := by
    rw [List.flatMap_eq_nil_iff]
    exact fun event member => (noData event member).1
  have written : next.written = c.written ++ events.filterMap piece? := by
    simp [ServerConnection.written, trace]
  have others :
      ∀ piece ∈ events.filterMap piece?, piece.req ≠ req := by
    intro piece member
    obtain ⟨event, inEvents, isPiece⟩ := List.mem_filterMap.mp member
    exact (noData event inEvents).2 piece isPiece
  have noneWritten :
      ((events.filterMap piece?).flatMap fun piece =>
        if piece.req = req then piece.data else []) = [] := by
    rw [List.flatMap_eq_nil_iff]
    intro piece member
    simp [others piece member]
  refine ⟨nextId, ?_, ?_, ?_, ?_, response⟩
  · simp [ServerConnection.given, trace, noneGiven]
  · simp [ServerConnection.writtenData, written, noneWritten]
  · constructor
    · rintro ⟨head, member⟩
      rw [written] at member
      rcases List.mem_append.mp member with old | new
      · exact ⟨head, old⟩
      · exact (others _ new rfl).elim
    · rintro ⟨head, member⟩
      exact ⟨head, by rw [written]; exact List.mem_append_left _ member⟩
  · constructor
    · rintro ⟨piece, member, sameReq, ends⟩
      rw [written] at member
      rcases List.mem_append.mp member with old | new
      · exact ⟨piece, old, sameReq, ends⟩
      · exact (others _ new sameReq).elim
    · rintro ⟨piece, member, sameReq, ends⟩
      exact ⟨piece, by rw [written]; exact List.mem_append_left _ member,
        sameReq, ends⟩

/-- A step without observations that keeps the responses. -/
theorem of_store
    {c next : ServerConnection}
    {req : Nat}
    (nextId : next.nextId = c.nextId)
    (trace : next.trace = c.trace)
    (response : (next.store req).response = (c.store req).response) :
    SameData c next req :=
  of_trace (Nat.le_of_eq nextId.symm) (trace.trans (List.append_nil _).symm)
    (by simp) (by rw [response])

theorem of_plain
    {c next : ServerConnection}
    (plain : Plain c next)
    (req : Nat) :
    SameData c next req := by
  obtain ⟨events, trace, isPlain⟩ := plain.trace
  refine of_trace (Nat.le_of_eq plain.nextId.symm) trace ?_ ?_
  · intro event member
    have := isPlain event member
    cases event <;> simp_all [isPlainEvent, NoData, givenBy, piece?]
  · simp [plain.store]

theorem setRequest
    (c : ServerConnection)
    (changed : Nat)
    (request : ServerRequest)
    (response : request.response = (c.store changed).response)
    (req : Nat) :
    SameData c (c.setRequest changed request) req := by
  refine of_store rfl rfl ?_
  by_cases same : req = changed <;> simp [same, response]

theorem cleanupRequest
    (c : ServerConnection)
    (gone : Nat)
    (rest : List Nat)
    (req : Nat) :
    SameData c (c.cleanupRequest gone rest) req := by
  refine of_trace (Nat.le_refl _) rfl
    (by simp [NoData, givenBy, piece?]) ?_
  by_cases same : req = gone <;>
    simp [ServerConnection.cleanupRequest, ServerConnection.emit, same,
      ServerConnection.setRequest]

theorem responded
    {c next : ServerConnection}
    {req : Nat}
    (same : SameData c next req) :
    next.Responded req ↔ c.Responded req := by
  have sameMap := congrArg Option.isSome same.response
  simp only [Option.isSome_map] at sameMap
  simp [Responded, sameMap]

theorem completed
    {c next : ServerConnection}
    {req : Nat}
    (same : SameData c next req) :
    next.Completed req ↔ c.Completed req := by
  have response := same.response
  cases old : (c.store req).response <;>
    cases new : (next.store req).response <;>
      simp [old, new] at response <;>
      simp [Completed, ServerRequest.responseCompleted, old, new, response]

end SameData

/-- A request's data is carried on where none is given or written for it. -/
theorem CarriedFor.same
    {c next : ServerConnection}
    {stack other : List Frame}
    {req : Nat}
    (carried : CarriedFor c stack req)
    (same : SameData c next req)
    (sameFlushing : flushing other req = flushing stack req)
    (stillHeld : req ∈ held other → req ∈ held stack) :
    CarriedFor next other req where
  answeredBelow responded := by
    have below := carried.answeredBelow (same.responded.mp responded)
    exact Nat.lt_of_lt_of_le below same.nextId
  unanswered notResponded := by
    rw [same.responded] at notResponded
    rw [same.started, same.given, same.writtenData]
    exact carried.unanswered notResponded
  waiting response stored notStarted := by
    rw [same.started] at notStarted
    rw [same.given, same.writtenData]
    have sameResponse := same.response
    rw [stored] at sameResponse
    cases old : (c.store req).response with
    | none =>
        simp [old] at sameResponse
    | some given =>
        simp only [old, Option.map_some, Option.some.injEq,
          Prod.mk.injEq] at sameResponse
        rw [sameResponse.1]
        exact carried.waiting given old notStarted
  started started := by
    rw [same.started] at started
    rw [same.given, same.writtenData, sameFlushing]
    exact carried.started started
  heldChunks waits := by
    rw [sameFlushing] at waits
    rw [same.completed]
    exact carried.heldChunks waits
  heldStarted member := by
    rw [same.started]
    exact carried.heldStarted (stillHeld member)
  ended written := by
    rw [same.blockWritten] at written
    rw [same.completed, same.started]
    exact carried.ended written

/-- The invariant is kept where no data is given or written. -/
theorem Carried.same
    {c next : ServerConnection}
    {stack other : List Frame}
    (carried : Carried c stack)
    (same : ∀ req, SameData c next req)
    (notWriting : Frame.writeNextResponse ∉ other)
    (sameFlushing : ∀ req, flushing other req = flushing stack req)
    (stillHeld : ∀ req ∈ held other, req ∈ held stack) :
    Carried next other where
  writeOnTop member := notWriting (List.mem_of_mem_tail member)
  writing isHead := (notWriting (List.mem_of_mem_head? isHead)).elim
  each req :=
    (carried.each req).same (same req) (sameFlushing req) (stillHeld req)

/-! ## Giving and writing data -/

section Updates

variable (c : ServerConnection) (req other : Nat)

@[simp] theorem given_emit (event : Event) :
    (c.emit event).given req = c.given req ++ givenBy req event := by
  simp [given, emit]

@[simp] theorem given_write (piece : Piece) :
    (c.write piece).given req = c.given req := by
  simp [given, write, givenBy]

@[simp] theorem given_setResponse (response : ServerResponse) :
    (c.setResponse other response).given req = c.given req := rfl

@[simp] theorem written_setResponse (response : ServerResponse) :
    (c.setResponse other response).written = c.written := rfl

@[simp] theorem writtenData_setResponse (response : ServerResponse) :
    (c.setResponse other response).writtenData req = c.writtenData req := rfl

@[simp] theorem writtenData_write (piece : Piece) :
    (c.write piece).writtenData req =
      c.writtenData req ++ if piece.req = req then piece.data else [] := by
  simp [writtenData]

theorem writtenData_emit {event : Event} (noPiece : piece? event = none) :
    (c.emit event).writtenData req = c.writtenData req := by
  simp [writtenData, noPiece]

theorem started_emit {event : Event} (noPiece : piece? event = none) :
    (c.emit event).Started req ↔ c.Started req := by
  simp [Started, noPiece]

@[simp] theorem started_setResponse (response : ServerResponse) :
    (c.setResponse other response).Started req ↔ c.Started req := Iff.rfl

end Updates

/-- A request without a response is not held. -/
theorem CarriedFor.not_held
    {c : ServerConnection}
    {stack : List Frame}
    {req : Nat}
    (carried : CarriedFor c stack req)
    (unanswered : ¬ c.Responded req) :
    req ∉ held stack :=
  fun member =>
    (carried.unanswered unanswered).1 (carried.heldStarted member)

/-- The response that is given for a request waits with its initial body. -/
theorem CarriedFor.takeResponse
    {c : ServerConnection}
    {stack : List Frame}
    {req : Nat}
    (carried : ∀ other, CarriedFor c stack other)
    (below : req < c.nextId)
    (unanswered : ¬ c.Responded req)
    (response : ServerResponse)
    (other : Nat) :
    CarriedFor (c.takeResponse req response) stack other := by
  by_cases same : other = req
  · subst other
    obtain ⟨notStarted, noneGiven, noneWritten⟩ :=
      (carried req).unanswered unanswered
    have notHeld := (carried req).not_held unanswered
    have stillNotStarted : ¬ (c.takeResponse req response).Started req := by
      unfold ServerConnection.takeResponse
      rw [started_emit _ _ rfl]
      exact notStarted
    have given :
        (c.takeResponse req response).given req = response.body.flatten := by
      unfold ServerConnection.takeResponse
      rw [given_emit]
      simpa [givenBy, ServerConnection.given, setResponse,
        setRequest] using noneGiven
    have written : (c.takeResponse req response).writtenData req = [] := by
      unfold ServerConnection.takeResponse
      rw [writtenData_emit _ _ rfl]
      exact noneWritten
    have noBlock : ¬ (c.takeResponse req response).BlockWritten req := by
      rintro ⟨piece, member, sameReq, ends⟩
      have old : c.BlockWritten req := by
        refine ⟨piece, ?_, sameReq, ends⟩
        simpa [ServerConnection.takeResponse, ServerConnection.written, emit,
          setResponse, setRequest, piece?] using member
      exact notStarted ((carried req).ended old).2
    refine
      { answeredBelow := fun _ => below
        unanswered := ?_
        waiting := ?_
        started := fun started => (stillNotStarted started).elim
        heldChunks := ?_
        heldStarted := fun member => (notHeld member).elim
        ended := fun block => (noBlock block).elim }
    · intro notResponded
      simp [Responded, ServerConnection.takeResponse, emit, setResponse,
        setRequest] at notResponded
    · intro stored isStored _
      refine ⟨?_, written⟩
      simp only [ServerConnection.takeResponse, emit, setResponse, setRequest,
        Function.update_self, Option.some.injEq] at isStored
      rw [given, ← isStored]
    · intro waits
      exact (waits (flushing_of_not_held notHeld)).elim
  · have noData : NoData other (.responded req response) := by
      simp [NoData, givenBy, piece?, Ne.symm same]
    apply (carried other).same _ rfl id
    refine SameData.of_trace (Nat.le_refl _) rfl (by simpa using noData) ?_
    simp [ServerConnection.takeResponse, emit, setResponse, setRequest, same]

/-- Nothing of a body is lost when its chunks are moved out. -/
theorem withoutTmpChunks_append_tmpChunks (response : ServerResponse) :
    response.withoutTmpChunks.body.flatten ++ response.tmpChunks.flatten =
      response.body.flatten := by
  unfold ServerResponse.withoutTmpChunks ServerResponse.tmpChunks
  split <;> simp

theorem tmpChunks_of_completed
    {response : ServerResponse}
    (completed : response.completed = true) :
    response.tmpChunks = [] := by
  simp [ServerResponse.tmpChunks, completed]

/-- What is known of a request when its head has been written. -/
structure HeadWritten
    (c : ServerConnection)
    (req : Nat)
    (tmpChunks : List Data)
    (completed : Bool) : Prop where
  below : req < c.nextId
  responded : c.Responded req
  started : c.Started req
  data : c.given req = c.writtenData req ++ tmpChunks.flatten
  completedIff : c.Completed req ↔ completed = true
  ended : c.BlockWritten req → completed = true

theorem SameData.startClosing
    (c : ServerConnection)
    (req other : Nat) :
    SameData c (c.startClosing req) other := by
  simp only [ServerConnection.startClosing]
  split
  · refine SameData.of_trace (Nat.le_refl _) rfl ?_ rfl
    simp [NoData, givenBy, piece?]
  · exact SameData.of_store rfl rfl rfl

theorem HeadWritten.startClosing
    {c : ServerConnection}
    {req : Nat}
    {tmpChunks : List Data}
    {completed : Bool}
    (written : HeadWritten c req tmpChunks completed) :
    HeadWritten (c.startClosing req) req tmpChunks completed := by
  have same := SameData.startClosing c req req
  exact
    { below := Nat.lt_of_lt_of_le written.below same.nextId
      responded := same.responded.mpr written.responded
      started := same.started.mpr written.started
      data := by
        rw [same.given, same.writtenData]
        exact written.data
      completedIff := same.completed.trans written.completedIff
      ended := fun block => written.ended (same.blockWritten.mp block) }

theorem CarriedFor.writeHead
    {c : ServerConnection}
    {stack : List Frame}
    {req : Nat}
    {response : ServerResponse}
    (carried : CarriedFor c stack req)
    (notHeld : req ∉ held stack)
    (stored : (c.store req).response = some response)
    (again : c.Started req → response.body.flatten = []) :
    HeadWritten (c.writeHead req (c.prepared response).withoutTmpChunks) req
      (c.prepared response).tmpChunks response.completed := by
  have responded : c.Responded req := by
    simp [Responded, stored]
  have completed :
      (c.prepared response).withoutTmpChunks.completed =
        response.completed :=
    completed_withoutTmpChunks _
  have waits : c.given req = c.writtenData req ++ response.body.flatten := by
    by_cases started : c.Started req
    · have data := carried.started started
      rw [flushing_of_not_held notHeld] at data
      rw [data, again started]
    · obtain ⟨given, written⟩ := carried.waiting response stored started
      rw [given, written, List.nil_append]
  have body :
      (c.prepared response).body.flatten = response.body.flatten := rfl
  refine
    { below := carried.answeredBelow responded
      responded := ?_
      started := ?_
      data := ?_
      completedIff := ?_
      ended := ?_ }
  · simp [Responded, ServerConnection.writeHead, write, setResponse,
      setRequest]
  · exact (started_write _ _ _).mpr (Or.inr ⟨_, rfl⟩)
  · unfold ServerConnection.writeHead
    rw [given_write, given_setResponse, writtenData_write,
      writtenData_setResponse, waits, ← body,
      ← withoutTmpChunks_append_tmpChunks (c.prepared response)]
    simp [Piece.req, Piece.data]
  · rw [Completed, completed_writeHead, completed]
  · intro block
    unfold ServerConnection.writeHead at block
    rcases (blockWritten_write _ _ _).mp block with old | ⟨_, ends⟩
    · have wasCompleted := (carried.ended old).1
      simpa [Completed, ServerRequest.responseCompleted,
        stored] using wasCompleted
    · simpa [endsBlock, completed] using ends

theorem SameData.writeHead
    (c : ServerConnection)
    (req : Nat)
    (response : ServerResponse)
    {other : Nat}
    (different : other ≠ req) :
    SameData c (c.writeHead req response) other := by
  refine SameData.of_trace (Nat.le_refl _) rfl ?_ ?_
  · simp [NoData, givenBy, piece?, Piece.req, Ne.symm different]
  · simp [ServerConnection.writeHead, write, setResponse, different]

/-! ## Flushing -/

theorem SameData.writeChunks
    (c : ServerConnection)
    (req : Nat)
    (chunks : List Data)
    {other : Nat}
    (different : other ≠ req) :
    SameData c (c.writeChunks req chunks) other := by
  induction chunks generalizing c with
  | nil =>
      exact SameData.of_store rfl rfl rfl
  | cons data rest inductionHypothesis =>
      refine SameData.trans ?_ (inductionHypothesis _)
      refine SameData.of_trace (Nat.le_refl _) rfl ?_ rfl
      simp [NoData, givenBy, piece?, Piece.req, Ne.symm different]

/-- The captured chunks are written in order. -/
theorem HeadWritten.writeChunks
    {c : ServerConnection}
    {req : Nat}
    {tmpChunks : List Data}
    {completed : Bool}
    (written : HeadWritten c req tmpChunks completed) :
    HeadWritten (c.writeChunks req tmpChunks) req [] completed := by
  induction tmpChunks generalizing c with
  | nil =>
      exact written
  | cons data rest inductionHypothesis =>
      apply inductionHypothesis
      exact
        { below := written.below
          responded := written.responded
          started := (started_write _ _ _).mpr (Or.inl written.started)
          data := by
            rw [given_write, writtenData_write, written.data]
            simp [Piece.req, Piece.data]
          completedIff := written.completedIff
          ended := by
            intro block
            rcases (blockWritten_write _ _ _).mp block with old | ⟨_, ends⟩
            · exact written.ended old
            · simp [endsBlock] at ends }

/-- The request's data is carried by its written pieces and the held chunks. -/
theorem HeadWritten.carried
    {c : ServerConnection}
    {stack : List Frame}
    {req : Nat}
    {tmpChunks : List Data}
    {completed : Bool}
    (written : HeadWritten c req tmpChunks completed)
    (flushed : flushing stack req = tmpChunks.flatten)
    (finished : completed = true → tmpChunks.flatten = []) :
    CarriedFor c stack req where
  answeredBelow _ := written.below
  unanswered notResponded := (notResponded written.responded).elim
  waiting _ _ notStarted := (notStarted written.started).elim
  started _ := by
    rw [flushed]
    exact written.data
  heldChunks waits isCompleted := by
    rw [flushed] at waits
    exact waits (finished (written.completedIff.mp isCompleted))
  heldStarted _ := written.started
  ended block :=
    ⟨written.completedIff.mpr (written.ended block), written.started⟩

/-! ## Every step -/

theorem plainFrame_inner
    {frame : Frame}
    (plain : isPlainFrame frame = true) :
    isInner frame = true := by
  unfold isPlainFrame at plain
  split at plain <;> simp_all [isInner]

/-- Inner frames are replaced, and nothing is given or written. -/
theorem Carried.replace
    {c next : ServerConnection}
    {frames rest : List Frame}
    (top : List Frame)
    (carried : Carried c (top ++ rest))
    (topInner : ∀ frame ∈ top, isInner frame = true)
    (same : ∀ req, SameData c next req)
    (inner : ∀ frame ∈ frames, isInner frame = true)
    (notWriting : Frame.writeNextResponse ∉ frames ++ rest) :
    Carried next (frames ++ rest) := by
  apply carried.same same notWriting
  · intro req
    rw [flushing_inner inner, flushing_inner topInner]
  · intro req member
    rw [held_inner inner] at member
    rw [held_inner topInner]
    exact member

theorem Carried.plain
    {c next : ServerConnection}
    {frames rest : List Frame}
    (top : List Frame)
    (carried : Carried c (top ++ rest))
    (topInner : ∀ frame ∈ top, isInner frame = true)
    (restNotWriting : Frame.writeNextResponse ∉ rest)
    (plain : PlainStep c (.next next frames)) :
    Carried next (frames ++ rest) := by
  apply carried.replace top topInner fun req => SameData.of_plain plain.1 req
  · exact fun frame member => plainFrame_inner (plain.2 frame member)
  · intro member
    rcases List.mem_append.mp member with inFrames | inRest
    · have := plain.2 _ inFrames
      simp [isPlainFrame] at this
    · exact restNotWriting inRest

theorem Carried.respond
    {c next : ServerConnection}
    {req : Nat}
    {response : ServerResponse}
    {frames rest : List Frame}
    (top : List Frame)
    (receiving : Receiving c (top ++ rest))
    (carried : Carried c (top ++ rest))
    (topInner : ∀ frame ∈ top, isInner frame = true)
    (restNotWriting : Frame.writeNextResponse ∉ rest)
    (executed : c.respond req response = .next next frames) :
    Carried next (frames ++ rest) := by
  obtain ⟨attached, unanswered, rfl, front, others, shape, outcome⟩ :=
    respond_next executed
  have below := receiving.attachedBelow req attached
  have each :=
    CarriedFor.takeResponse carried.each below unanswered response
  have sameTrace :
      ∀ other, (c.takeResponse req response).Started other ↔ c.Started other := by
    intro other
    unfold takeResponse
    rw [started_emit _ _ rfl]
    rfl
  have restacked :
      ∀ frames,
        (∀ frame ∈ frames, isInner frame = true) →
        ∀ other,
          CarriedFor (c.takeResponse req response) (frames ++ rest) other := by
    intro frames inner other
    apply (each other).same (SameData.of_store rfl rfl rfl)
    · rw [flushing_inner inner, flushing_inner topInner]
    · intro member
      rw [held_inner inner] at member
      rw [held_inner topInner]
      exact member
  rcases outcome with ⟨isFront, rfl⟩ | ⟨notFront, rfl⟩
  · refine
      { writeOnTop := by simpa using restNotWriting
        writing := ?_
        each := restacked _ (by simp [isInner]) }
    intro _ other given first _ started
    -- the request that has just been answered has not been started
    have isReq : other = req := by
      have : front = other := by
        simpa [takeResponse, emit, setResponse, setRequest, shape] using first
      rw [← this, isFront]
    subst other
    exact
      (((carried.each req).unanswered unanswered).1
        ((sameTrace req).mp started)).elim
  · refine
      { writeOnTop := fun member =>
          restNotWriting (List.mem_of_mem_tail member)
        writing := ?_
        each := restacked [] (by simp) }
    intro isHead
    exact (restNotWriting (List.mem_of_mem_head? isHead)).elim

theorem Carried.writeNextResponse
    {c next : ServerConnection}
    {rest frames : List Frame}
    (receiving : Receiving c (.writeNextResponse :: rest))
    (carried : Carried c (.writeNextResponse :: rest))
    (executed : c.writeNextResponse = .next next frames) :
    Carried next (frames ++ rest) := by
  have restNotWriting : Frame.writeNextResponse ∉ rest := carried.writeOnTop
  have topInner :
      ∀ frame ∈ [Frame.writeNextResponse], isInner frame = true := by
    simp [isInner]
  obtain ⟨req, others, response, shape, stored, outcome⟩ :=
    writeNextResponse_next executed
  have sameHeld : held (.writeNextResponse :: rest) = held rest :=
    held_inner topInner rest
  have sameFlushing :
      ∀ other, flushing (.writeNextResponse :: rest) other =
        flushing rest other :=
    flushing_inner topInner rest
  have notHeld : req ∉ held (.writeNextResponse :: rest) := by
    intro member
    exact (receiving.heldApart req member).2.1 (by simp [shape])
  have restNone : flushing rest req = [] := by
    rw [sameHeld] at notHeld
    exact flushing_of_not_held notHeld
  have headWritten :=
    (carried.each req).writeHead notHeld stored
      (carried.writing rfl req response (by simp [shape]) stored)
  have otherHead :
      ∀ other, other ≠ req →
        SameData c
          (c.writeHead req (c.prepared response).withoutTmpChunks) other :=
    fun other different => SameData.writeHead c req _ different
  have middleWritten :
      ∀ middle,
        WritesHead c req others (c.prepared response).withoutTmpChunks middle →
        HeadWritten middle req (c.prepared response).tmpChunks
            response.completed ∧
          ∀ other, other ≠ req → SameData c middle other := by
    intro middle writes
    cases writes with
    | keepAlive _ _ =>
        exact ⟨headWritten, otherHead⟩
    | closing _ =>
        refine ⟨headWritten.startClosing, fun other different => ?_⟩
        exact (otherHead other different).trans
          (SameData.startClosing _ req other)
  have finished :
      response.completed = true →
      (c.prepared response).tmpChunks.flatten = [] := by
    intro completed
    have isCompleted : (c.prepared response).completed = true := completed
    rw [tmpChunks_of_completed isCompleted, List.flatten_nil]
  cases outcome with
  | finish writes completed =>
      obtain ⟨written, same⟩ := middleWritten next writes
      refine
        { writeOnTop := by simpa using restNotWriting
          writing := by simp
          each := ?_ }
      have inner : ∀ frame ∈ [Frame.finishRequest], isInner frame = true := by
        simp [isInner]
      intro other
      by_cases isReq : other = req
      · subst other
        apply written.carried _ finished
        rw [flushing_inner inner, restNone, finished completed]
      · apply (carried.each other).same (same other isReq)
        · rw [flushing_inner inner, sameFlushing]
        · intro member
          rw [held_inner inner] at member
          rwa [sameHeld]
  | flush writes completed =>
      obtain ⟨written, same⟩ := middleWritten _ writes
      refine
        { writeOnTop := fun member =>
            restNotWriting (List.mem_of_mem_tail member)
          writing := fun isHead =>
            (restNotWriting (List.mem_of_mem_head? isHead)).elim
          each := ?_ }
      intro other
      by_cases isReq : other = req
      · subst other
        exact written.writeChunks.carried (by simpa using restNone) (by simp)
      · apply (carried.each other).same
          ((same other isReq).trans (SameData.writeChunks _ _ _ isReq))
        · exact (sameFlushing other).symm
        · intro member
          rw [sameHeld]
          exact member
  | hold nonempty =>
      have written := headWritten.startClosing
      have same :
          ∀ other, other ≠ req →
            SameData c
              { (c.writeHead req
                  (c.prepared response).withoutTmpChunks).startClosing req with
                requests := others } other := by
        intro other different
        exact
          ((otherHead other different).trans
            (SameData.startClosing _ req other)).trans
              (SameData.of_store rfl rfl rfl)
      refine
        { writeOnTop := by simpa using restNotWriting
          writing := by simp
          each := ?_ }
      intro other
      by_cases isReq : other = req
      · subst other
        have heldWritten :
            HeadWritten
              { (c.writeHead req
                  (c.prepared response).withoutTmpChunks).startClosing req with
                requests := others }
              req (c.prepared response).tmpChunks response.completed :=
          ⟨written.below, written.responded, written.started, written.data,
            written.completedIff, written.ended⟩
        apply heldWritten.carried _ finished
        simp [flushing, tmpChunksOf] at restNone ⊢
        exact restNone
      · apply (carried.each other).same (same other isReq)
        · rw [sameFlushing]
          simp [flushing, tmpChunksOf, Ne.symm isReq]
        · intro member
          rw [sameHeld]
          simpa [held, held?, isReq] using member

/-- Frames that neither hold chunks nor are written are replaced by others. -/
theorem CarriedFor.restack
    {c : ServerConnection}
    {frames rest : List Frame}
    {req : Nat}
    (top : List Frame)
    (carried : CarriedFor c (top ++ rest) req)
    (topInner : ∀ frame ∈ top, isInner frame = true)
    (inner : ∀ frame ∈ frames, isInner frame = true) :
    CarriedFor c (frames ++ rest) req := by
  apply carried.same (SameData.of_store rfl rfl rfl)
  · rw [flushing_inner inner, flushing_inner topInner]
  · intro member
    rw [held_inner inner] at member
    rw [held_inner topInner]
    exact member

/-- A call of the application that gives data for one request. -/
theorem Carried.update
    {c next : ServerConnection}
    {stack : List Frame}
    (req : Nat)
    (carried : Carried c stack)
    (notWriting : Frame.writeNextResponse ∉ stack)
    (others : ∀ other, other ≠ req → SameData c next other)
    (one : CarriedFor next stack req) :
    Carried next stack where
  writeOnTop := carried.writeOnTop
  writing isHead := (notWriting (List.mem_of_mem_head? isHead)).elim
  each other := by
    by_cases isReq : other = req
    · exact isReq ▸ one
    · exact (carried.each other).same (others other isReq) rfl id

theorem Carried.sendContinue
    {c next : ServerConnection}
    {req : Nat}
    {frames stack : List Frame}
    (carried : Carried c stack)
    (notWriting : Frame.writeNextResponse ∉ stack)
    (executed : c.sendContinue req = .next next frames) :
    Carried next (frames ++ stack) := by
  have wrote :
      (next = c ∨ next = c.write (.continue100 req)) ∧ frames = [] := by
    unfold ServerConnection.sendContinue at executed
    split at executed
    · cases executed
    · dsimp only at executed
      split at executed
      · cases executed
        exact ⟨Or.inl rfl, rfl⟩
      · split at executed
        · cases executed
          exact ⟨Or.inl rfl, rfl⟩
        · split at executed
          · cases executed
          · cases executed
            exact ⟨Or.inr rfl, rfl⟩
  obtain ⟨rfl | rfl, rfl⟩ := wrote
  · exact carried
  · apply carried.same _ notWriting (fun _ => rfl) (fun _ => id)
    intro other
    exact
      { nextId := Nat.le_refl _
        given := given_write _ _ _
        writtenData := by simp [Piece.data]
        started := by simp [started_write]
        blockWritten := by simp [blockWritten_write, endsBlock]
        response := rfl }

theorem Carried.sendChunk
    {c next : ServerConnection}
    {req : Nat}
    {response : ServerResponse}
    {data : Data}
    {frames stack : List Frame}
    (receiving : Receiving c stack)
    (carried : Carried c stack)
    (notWriting : Frame.writeNextResponse ∉ stack)
    (stored : (c.store req).response = some response)
    (inPlace :
      data ≠ [] → (c.requests.head? = some req ↔ c.Started req))
    (executed : c.sendChunk req response data = .next next frames) :
    Carried next (frames ++ stack) := by
  have otherData :
      ∀ other, other ≠ req →
        SameData c (c.emit (.gaveChunk req data)) other := by
    intro other different
    refine SameData.of_trace (Nat.le_refl _) rfl ?_ rfl
    simp [NoData, givenBy, piece?, Ne.symm different]
  have one := carried.each req
  have responded : c.Responded req := by
    simp [Responded, stored]
  simp only [ServerConnection.sendChunk] at executed
  split at executed
  · cases executed
  · rename_i front rest shape
    have deque : c.requests = front :: rest := shape
    split at executed
    · -- nothing is given
      rename_i empty
      cases executed
      refine carried.update req notWriting otherData ?_
      apply one.same _ rfl id
      refine SameData.of_trace (Nat.le_refl _) rfl ?_ rfl
      simp [NoData, givenBy, piece?, empty]
    · rename_i nonempty
      split at executed
      · -- the chunk is written behind the head and the chunks before it
        rename_i isFront
        cases executed
        have started : c.Started req :=
          (inPlace nonempty).mp (by simp [deque, isFront])
        have notHeld : req ∉ held stack := by
          intro member
          exact (receiving.heldApart req member).2.1 (by simp [deque, isFront])
        have noneFlushing := flushing_of_not_held notHeld
        have carriedData := one.started started
        rw [noneFlushing, List.append_nil] at carriedData
        refine carried.update req notWriting ?_ ?_
        · intro other different
          refine (otherData other different).trans ?_
          refine SameData.of_trace (Nat.le_refl _) rfl ?_ rfl
          simp [NoData, givenBy, piece?, Piece.req, Ne.symm different]
        · have stillStarted :
              ((c.emit (.gaveChunk req data)).write
                (.chunk req data)).Started req :=
            (started_write _ _ _).mpr
              (Or.inl ((started_emit _ _ rfl).mpr started))
          refine
            { answeredBelow := one.answeredBelow
              unanswered := fun notResponded =>
                (notResponded responded).elim
              waiting := fun _ _ notStarted =>
                (notStarted stillStarted).elim
              started := fun _ => ?_
              heldChunks := fun waits => (waits noneFlushing).elim
              heldStarted := fun _ => stillStarted
              ended := ?_ }
          · rw [given_write, given_emit, writtenData_write,
              writtenData_emit _ _ rfl, List.nil_append, noneFlushing,
              carriedData]
            simp [givenBy, Piece.req, Piece.data]
          · intro block
            rcases (blockWritten_write _ _ _).mp block with old | ⟨_, ends⟩
            · have wasBlock : c.BlockWritten req := by
                simpa [BlockWritten, piece?] using old
              exact ⟨(one.ended wasBlock).1, stillStarted⟩
            · simp [endsBlock] at ends
      · -- the chunk is captured behind the chunks before it
        rename_i notFront
        cases executed
        have notStarted : ¬ c.Started req := by
          intro started
          have isFront := (inPlace nonempty).mpr started
          simp only [deque, List.head?_cons, Option.some.injEq] at isFront
          exact notFront isFront
        obtain ⟨wasGiven, wasWritten⟩ := one.waiting response stored notStarted
        have notHeld : req ∉ held stack :=
          fun member => notStarted (one.heldStarted member)
        have stillNotStarted :
            ¬ ((c.emit (.gaveChunk req data)).setResponse req
              { response with
                body := response.body ++ [data] }).Started req := by
          rw [started_setResponse, started_emit _ _ rfl]
          exact notStarted
        refine carried.update req notWriting ?_ ?_
        · intro other different
          refine (otherData other different).trans ?_
          exact SameData.of_store rfl rfl (by simp [different])
        · refine
            { answeredBelow := fun _ => one.answeredBelow responded
              unanswered := ?_
              waiting := ?_
              started := fun started => (stillNotStarted started).elim
              heldChunks := fun waits =>
                (waits (flushing_of_not_held notHeld)).elim
              heldStarted := fun member => (notHeld member).elim
              ended := ?_ }
          · intro notResponded
            simp [Responded] at notResponded
          · intro after isStored _
            have sameBody : after.body = response.body ++ [data] := by
              simp only [store_setResponse, ↓reduceIte,
                Option.some.injEq] at isStored
              rw [← isStored]
            constructor
            · rw [given_setResponse, given_emit, wasGiven, sameBody]
              simp [givenBy]
            · rw [writtenData_setResponse, writtenData_emit _ _ rfl,
                wasWritten]
          · intro block
            have wasBlock : c.BlockWritten req := by
              simpa [BlockWritten, piece?] using block
            exact (notStarted (one.ended wasBlock).2).elim

theorem Carried.sendFinalChunk
    {c next : ServerConnection}
    {req : Nat}
    {response : ServerResponse}
    {data : Data}
    {frames stack : List Frame}
    (receiving : Receiving c stack)
    (carried : Carried c stack)
    (notWriting : Frame.writeNextResponse ∉ stack)
    (stored : (c.store req).response = some response)
    (frontStarted : c.requests.head? = some req → c.Started req)
    (captured :
      c.requests.head? ≠ some req → data = [] ∧ flushing stack req = [])
    (executed : c.sendFinalChunk req response data = .next next frames) :
    Carried next (frames ++ stack) := by
  have one := carried.each req
  have responded : c.Responded req := by
    simp [Responded, stored]
  have otherData :
      ∀ other, other ≠ req →
        SameData c
          ((c.emit (.gaveFinalChunk req data)).setResponse req
            { response with completed := true }) other := by
    intro other different
    refine SameData.of_trace (Nat.le_refl _) rfl ?_ (by simp [emit, different])
    simp [NoData, givenBy, piece?, Ne.symm different]
  simp only [ServerConnection.sendFinalChunk] at executed
  split at executed
  · cases executed
  · rename_i front rest shape
    have deque : c.requests = front :: rest := shape
    split at executed
    · -- the final chunk is written behind the head and the chunks
      rename_i isFront
      cases executed
      have started : c.Started req := frontStarted (by simp [deque, isFront])
      have notHeld : req ∉ held stack := by
        intro member
        exact (receiving.heldApart req member).2.1 (by simp [deque, isFront])
      have noneFlushing := flushing_of_not_held notHeld
      have carriedData := one.started started
      rw [noneFlushing, List.append_nil] at carriedData
      have stillStarted :
          (((c.emit (.gaveFinalChunk req data)).setResponse req
            { response with completed := true }).write
              (.finalChunk req data)).Started req :=
        (started_write _ _ _).mpr
          (Or.inl ((started_emit _ _ rfl).mpr started))
      have updated :
          Carried
            (((c.emit (.gaveFinalChunk req data)).setResponse req
              { response with completed := true }).write
                (.finalChunk req data)) stack := by
        refine carried.update req notWriting ?_ ?_
        · intro other different
          refine (otherData other different).trans ?_
          refine SameData.of_trace (Nat.le_refl _) rfl ?_ rfl
          simp [NoData, givenBy, piece?, Piece.req, Ne.symm different]
        · refine
            { answeredBelow := fun _ => one.answeredBelow responded
              unanswered := ?_
              waiting := fun _ _ notStarted =>
                (notStarted stillStarted).elim
              started := fun _ => ?_
              heldChunks := fun waits => (waits noneFlushing).elim
              heldStarted := fun _ => stillStarted
              ended := fun _ => ⟨?_, stillStarted⟩ }
          · intro notResponded
            simp [Responded, write, setResponse, setRequest] at notResponded
          · rw [given_write, given_setResponse, given_emit,
              writtenData_write, writtenData_setResponse,
              writtenData_emit _ _ rfl, noneFlushing, carriedData]
            simp [givenBy, Piece.req, Piece.data]
          · simp [Completed, write, setResponse, setRequest,
              ServerRequest.responseCompleted]
      refine
        { writeOnTop := by simpa using notWriting
          writing := by simp
          each := fun other => ?_ }
      exact (updated.each other).restack [] (by simp) (by simp [isInner])
    · -- the response is only marked as complete
      rename_i notFront
      cases executed
      obtain ⟨empty, noneFlushing⟩ :=
        captured (by simpa [deque] using notFront)
      refine carried.update req notWriting otherData ?_
      have sameStarted :
          ((c.emit (.gaveFinalChunk req data)).setResponse req
              { response with completed := true }).Started req ↔
            c.Started req := by
        rw [started_setResponse, started_emit _ _ rfl]
      have sameGiven :
          ((c.emit (.gaveFinalChunk req data)).setResponse req
            { response with completed := true }).given req =
              c.given req := by
        simp [givenBy, empty]
      have sameWritten :
          ((c.emit (.gaveFinalChunk req data)).setResponse req
            { response with completed := true }).writtenData req =
              c.writtenData req := by
        rw [writtenData_setResponse, writtenData_emit _ _ rfl]
      refine
        { answeredBelow := fun _ => one.answeredBelow responded
          unanswered := ?_
          waiting := ?_
          started := ?_
          heldChunks := fun waits => (waits noneFlushing).elim
          heldStarted := fun member =>
            sameStarted.mpr (one.heldStarted member)
          ended := ?_ }
      · intro notResponded
        simp [Responded] at notResponded
      · intro after isStored notStarted
        rw [sameStarted] at notStarted
        rw [sameGiven, sameWritten]
        simp only [store_setResponse, ↓reduceIte,
          Option.some.injEq] at isStored
        rw [← isStored]
        exact one.waiting response stored notStarted
      · intro started
        rw [sameStarted] at started
        rw [sameGiven, sameWritten]
        exact one.started started
      · intro block
        have wasBlock : c.BlockWritten req := by
          simpa [BlockWritten, piece?] using block
        refine ⟨?_, sameStarted.mpr (one.ended wasBlock).2⟩
        simp [Completed, ServerRequest.responseCompleted]

theorem Carried.dropRequests
    {c next : ServerConnection}
    {error : Option ErrorCode}
    {returns : DropReturn}
    {rest frames : List Frame}
    (receiving : Receiving c (.dropRequests error returns :: rest))
    (carried : Carried c (.dropRequests error returns :: rest))
    (executed : c.dropRequests error returns = .next next frames) :
    Carried next (frames ++ rest) := by
  have restNotWriting : Frame.writeNextResponse ∉ rest := carried.writeOnTop
  unfold ServerConnection.dropRequests at executed
  split at executed
  · rename_i req others shape
    cases executed
    have same :
        ∀ other,
          SameData c
            ((c.cleanupRequest req others).emit (.dropped req error)) other := by
      intro other
      refine (SameData.cleanupRequest c req others other).trans ?_
      refine SameData.of_trace (Nat.le_refl _) rfl ?_ rfl
      simp [NoData, givenBy, piece?]
    change
      Carried _
        ([.fire (.finishEvent req), .dropNotify req error] ++
          .dropRequests error returns :: rest)
    exact carried.replace [] (by simp) same (by simp [isInner])
      (by simpa using restNotWriting)
  · split at executed
    · cases executed
      exact carried.plain [_] (by simp [isInner]) restNotWriting
        ⟨Plain.refl c, by simp⟩
    · cases executed
      exact carried.plain [_] (by simp [isInner]) restNotWriting
        (plain_remove c)
    · rename_i req tmpChunks
      have oldHeld :
          held (.dropRequests error (.writeNextResponse req tmpChunks) ::
            rest) = req :: held rest := rfl
      have heldOnce := receiving.heldOnce
      rw [oldHeld, List.nodup_cons] at heldOnce
      have noneBelow : flushing rest req = [] :=
        flushing_of_not_held heldOnce.1
      have reqFlushing :
          flushing (.dropRequests error (.writeNextResponse req tmpChunks) ::
            rest) req = tmpChunks.flatten := by
        simpa [flushing, tmpChunksOf] using noneBelow
      have otherFlushing :
          ∀ other, other ≠ req →
            flushing (.dropRequests error
              (.writeNextResponse req tmpChunks) :: rest) other =
                flushing rest other := by
        intro other different
        simp [flushing, tmpChunksOf, Ne.symm different]
      have one := carried.each req
      have started : c.Started req := one.heldStarted (by simp [oldHeld])
      have responded : c.Responded req := by
        by_contra unanswered
        exact (one.unanswered unanswered).1 started
      have data := one.started started
      rw [reqFlushing] at data
      have restoredWritten :
          HeadWritten { c with requests := [req] } req tmpChunks
            (c.store req).responseCompleted :=
        { below := one.answeredBelow responded
          responded := responded
          started := started
          data := data
          completedIff := Iff.rfl
          ended := fun block => (one.ended block).1 }
      have others :
          ∀ other, other ≠ req →
            CarriedFor { c with requests := [req] } rest other := by
        intro other different
        have same : SameData c { c with requests := [req] } other :=
          SameData.of_store rfl rfl rfl
        apply (carried.each other).same same
        · exact (otherFlushing other different).symm
        · intro member
          rw [oldHeld]
          exact List.mem_cons_of_mem _ member
      unfold flushResponse at executed
      split at executed
      · -- the response is complete, so no chunk has been waiting
        rename_i completed
        cases executed
        have noneWaits : tmpChunks.flatten = [] := by
          by_contra waits
          rw [← reqFlushing] at waits
          exact one.heldChunks waits completed
        refine
          { writeOnTop := by simpa using restNotWriting
            writing := by simp
            each := ?_ }
        intro other
        refine CarriedFor.restack [] ?_ (by simp) (by simp [isInner])
        by_cases isReq : other = req
        · subst other
          apply restoredWritten.carried
          · simpa [noneWaits] using noneBelow
          · exact fun _ => noneWaits
        · exact others other isReq
      · rename_i unfinished
        cases executed
        refine
          { writeOnTop := fun member =>
              restNotWriting (List.mem_of_mem_tail member)
            writing := fun isHead =>
              (restNotWriting (List.mem_of_mem_head? isHead)).elim
            each := ?_ }
        intro other
        by_cases isReq : other = req
        · subst other
          exact restoredWritten.writeChunks.carried
            (by simpa using noneBelow) (by simp)
        · exact (others other isReq).same
            (SameData.writeChunks _ _ _ isReq) rfl id

theorem SameData.of_parses
    {c next : ServerConnection}
    {result : Parsed}
    {req : Nat}
    (parses : Parses c result next req)
    (fresh : ∀ other, c.Responded other → other < c.nextId)
    (other : Nat) :
    SameData c next other := by
  obtain ⟨base, stored, origin⟩ := parses.origin
  have noData :
      ∀ event ∈ (if c.requests.getLast? = some req then
          []
        else
          [Event.appended req]), NoData other event := by
    split <;> simp [NoData, givenBy, piece?]
  rcases origin with
    ⟨_, same, nextId, trace⟩ | ⟨_, same, isNext, nextId, trace⟩
  · refine SameData.of_trace (Nat.le_of_eq nextId.symm) trace noData ?_
    by_cases isReq : other = req
    · subst other
      simp [stored, same]
    · rw [parses.others other isReq]
  · rw [List.append_assoc] at trace
    refine SameData.of_trace (by omega) trace ?_ ?_
    · intro event member
      rcases List.mem_append.mp member with isNew | isAppended
      · simp only [List.mem_singleton] at isNew
        simp [isNew, NoData, givenBy, piece?]
      · exact noData event isAppended
    · by_cases isReq : other = req
      · subst other
        have unanswered : (c.store req).response = none := by
          by_contra answered
          have := fresh req (Option.isSome_iff_ne_none.mpr answered)
          omega
        simp [stored, same, unanswered]
      · rw [parses.others other isReq]

theorem SameData.of_readFails
    {c next : ServerConnection}
    {req : Nat}
    (fails : ReadFails c next req)
    (fresh : ∀ other, c.Responded other → other < c.nextId)
    (other : Nat) :
    SameData c next other := by
  rcases fails.origin with
    ⟨_, _, _, nextId, trace, stored⟩ | ⟨_, isNext, _, nextId, trace, stored⟩
  · refine SameData.of_store nextId trace ?_
    by_cases isReq : other = req
    · subst other
      simp [stored]
    · rw [fails.others other isReq]
  · refine SameData.of_trace (by omega) trace
      (by simp [NoData, givenBy, piece?]) ?_
    by_cases isReq : other = req
    · subst other
      have unanswered : (c.store req).response = none := by
        by_contra answered
        have := fresh req (Option.isSome_iff_ne_none.mpr answered)
        omega
      simp [stored, unanswered]
    · rw [fails.others other isReq]

/-- The loop of `on_read` gives and writes no data. -/
theorem Carried.onReadLoop
    {c next : ServerConnection}
    {buf : List Parsed}
    {frames : List Frame}
    (carried : Carried c [.onRead buf])
    (executed : c.onReadLoop buf = .next next frames) :
    Carried next frames := by
  cases buf with
  | nil =>
      cases executed
      exact carried.same (fun _ => SameData.of_store rfl rfl rfl) (by simp)
        (fun _ => rfl) (fun _ member => member)
  | cons result rest =>
      obtain ⟨parsed, req, parses, reads⟩ := onReadLoop_next executed
      have same :
          ∀ other, SameData c parsed other :=
        SameData.of_parses parses fun other =>
          (carried.each other).answeredBelow
      cases reads with
      | route _ _ =>
          exact carried.same
            (fun other =>
              (same other).trans
                (SameData.setRequest parsed req
                  { parsed.store req with routed := true } rfl other))
            (by simp) (fun _ => rfl) (fun _ member => member)
      | _ =>
          exact carried.same same (by simp) (fun _ => rfl)
            (fun _ member => member)

theorem Carried.tick
    {frame : Frame}
    {rest frames : List Frame}
    {c next : ServerConnection}
    (carried : Carried c (frame :: rest))
    (receiving : Receiving c (frame :: rest))
    (permitted : ChunksInPlace ⟨c, frame :: rest, none⟩ .tick)
    (executed : code frame c = .next next frames) :
    Carried next (frames ++ rest) := by
  have restNotWriting : Frame.writeNextResponse ∉ rest := carried.writeOnTop
  have reads :
      ((∃ req done buf, frame = .routed req done buf) ∨
        ∃ req done buf, frame = .received req done buf) →
      Carried next (frames ++ rest) := by
    intro between
    obtain ⟨plain, notWriting, notDropping⟩ := reader_next between executed
    have alone : rest = [] := by
      rcases between with ⟨_, _, _, rfl⟩ | ⟨_, _, _, rfl⟩ <;>
        exact receiving.alone rfl
    subst rest
    have noneHeld : held frames = [] := by
      rw [held, List.filterMap_eq_nil_iff]
      intro other member
      unfold held?
      split
      · exact (notDropping _ _ member).elim
      · rfl
    have oldNoneHeld : held [frame] = [] := by
      rcases between with ⟨_, _, _, rfl⟩ | ⟨_, _, _, rfl⟩ <;> rfl
    apply carried.same (fun req => SameData.of_plain plain req)
    · simpa using notWriting
    · intro req
      rw [flushing_of_not_held (by simp [noneHeld]),
        flushing_of_not_held (by simp [oldNoneHeld])]
    · simp [noneHeld]
  have runs :
      runsPlain frame = true →
      (∀ other ∈ [frame], isInner other = true) →
      Carried next (frames ++ rest) := by
    intro runsPlain inner
    have plain := plain_code c runsPlain
    rw [executed] at plain
    exact carried.plain [frame] inner restNotWriting plain
  cases frame with
  | onRead buf =>
      have alone := receiving.alone rfl
      subst rest
      simpa using carried.onReadLoop executed
  | routed req done buf =>
      exact reads (Or.inl ⟨req, done, buf, rfl⟩)
  | received req done buf =>
      exact reads (Or.inr ⟨req, done, buf, rfl⟩)
  | requestError req error =>
      cases executed
      exact carried.replace [_] (by simp [isInner])
        (fun other => SameData.of_plain (Plain.readIgnore c) other)
        (by simp [isInner]) (by simpa using restNotWriting)
  | requestErrorReturn req =>
      simp only [code, requestErrorReturn] at executed
      split at executed
      · exact Carried.respond [_] receiving carried (by simp [isInner])
          restNotWriting executed
      · rename_i response stored
        split at executed
        · cases executed
          refine carried.replace [_] (by simp [isInner]) ?_ (by simp)
            (by simpa using restNotWriting)
          intro other
          refine SameData.of_trace (Nat.le_refl _) (List.append_nil _).symm
            (by simp) ?_
          by_cases isReq : other = req <;> simp [isReq, stored]
        · cases executed
          exact carried.plain [_] (by simp [isInner]) restNotWriting
            ⟨Plain.refl c, by simp⟩
  | writeNextResponse =>
      exact Carried.writeNextResponse receiving carried executed
  | finishRequest =>
      obtain ⟨req, others, _, _, ⟨_, rfl, rfl⟩ | ⟨_, rfl, rfl⟩⟩ :=
        finishRequest_next executed
      · exact carried.replace [_] (by simp [isInner])
          (fun other =>
            SameData.setRequest c req
              { c.store req with finishOnReceive := true } rfl other)
          (by simp)
          (by simpa using restNotWriting)
      · exact carried.replace [_] (by simp [isInner])
          (fun other => SameData.cleanupRequest c req others other)
          (by simp [isInner]) (by simpa using restNotWriting)
  | finishReturn =>
      rcases finishReturn_plain executed with
        plain | ⟨closing, stopping, rfl, rfl⟩
      · exact carried.plain [_] (by simp [isInner]) restNotWriting plain
      · refine
          { writeOnTop := by simpa using restNotWriting
            writing := ?_
            each := fun other =>
              (carried.each other).restack [_] (by simp [isInner])
                (by simp [isInner]) }
        intro _ req response first stored started
        exact permitted.1 rfl rfl ⟨closing, stopping⟩ req first response
          stored started
  | dropRequests error returns =>
      exact Carried.dropRequests receiving carried executed
  | _ =>
      exact runs rfl (by simp [isInner])

theorem Carried.input
    {input : Input}
    {stack frames : List Frame}
    {c next : ServerConnection}
    (carried : Carried c stack)
    (receiving : Receiving c stack)
    (boundary : machine.atBoundary stack = true)
    (permitted : ChunksInPlace ⟨c, stack, none⟩ (.input input))
    (accepted : accept input stack.head? c = some (.next next frames)) :
    Carried next (frames ++ stack) := by
  have notWriting := notWriting_of_boundary boundary carried.writeOnTop
  cases input with
  | respond req response =>
      simp only [accept] at accepted
      split at accepted
      · cases accepted
      · simp only [Option.some.injEq, requestRespond] at accepted
        split at accepted
        · exact Carried.respond [] receiving carried (by simp) notWriting
            accepted
        · cases accepted
          exact carried
  | sendContinue req =>
      simp only [accept, Option.some.injEq, requestSendContinue] at accepted
      split at accepted
      · exact carried.sendContinue notWriting accepted
      · cases accepted
        exact carried
  | sendChunk req data =>
      simp only [accept, Option.some.injEq] at accepted
      rcases responseSend_next accepted with
        ⟨rfl, rfl⟩ | ⟨response, stored, accepts, sent⟩
      · exact carried
      · exact Carried.sendChunk receiving carried notWriting stored
          (permitted.2.1 (req, data) rfl accepts) sent
  | sendFinalChunk req data =>
      simp only [accept, Option.some.injEq] at accepted
      rcases responseSend_next accepted with
        ⟨rfl, rfl⟩ | ⟨response, stored, accepts, sent⟩
      · exact carried
      · obtain ⟨frontStarted, captured⟩ :=
          permitted.2.2 (req, data) rfl accepts
        exact Carried.sendFinalChunk receiving carried notWriting stored
          frontStarted captured sent
  | upgrade req =>
      simp only [accept, Option.some.injEq, requestUpgrade] at accepted
      split at accepted
      · cases accepted
        exact carried
      · split at accepted
        · cases accepted
          exact carried
        · unfold ServerConnection.upgrade at accepted
          split at accepted
          · cases accepted
            refine carried.replace [] (by simp) ?_ (by simp [isInner])
              (by simpa using notWriting)
            intro other
            refine SameData.trans ?_ (SameData.cleanupRequest _ _ _ other)
            refine SameData.of_trace (Nat.le_refl _) rfl ?_ rfl
            simp [NoData, givenBy, piece?]
          · cases accepted
  | enablePartial req =>
      cases accepted
      exact carried.same
        (fun other =>
          SameData.setRequest c req
            { c.store req with partialMode := true } rfl other)
        notWriting (fun _ => rfl) (fun _ member => member)
  | gracefulStop =>
      simp only [accept, Option.some.injEq, gracefulStop] at accepted
      split at accepted
      · have plain := plain_doClose c (some (.http .serverStopping)) true
        rw [accepted] at plain
        exact carried.plain [] (by simp) notWriting plain
      · cases accepted
        exact carried.same (fun _ => SameData.of_store rfl rfl rfl)
          notWriting (fun _ => rfl) (fun _ member => member)
  | onRead buf =>
      cases stack with
      | nil =>
          simp only [List.head?_nil, accept] at accepted
          split at accepted
          · cases accepted
            exact carried.same (fun _ => SameData.of_store rfl rfl rfl)
              (by simp) (fun _ => rfl) (fun _ member => member)
          · cases accepted
      | cons frame rest =>
          simp [accept] at accepted
  | onReadError error =>
      cases stack with
      | nil =>
          simp only [List.head?_nil, accept] at accepted
          split at accepted
          · simp only [Option.some.injEq] at accepted
            obtain ⟨req, rfl, fails⟩ := onReadError_next accepted
            refine carried.same (fun other => ?_) (by simp)
              (fun _ => rfl) (fun _ member => member)
            have ended :
                SameData c
                  { c with stream := { c.stream with ended := true } } other :=
              SameData.of_store rfl rfl rfl
            exact ended.trans
              (SameData.of_readFails fails
                (fun answered => (carried.each answered).answeredBelow) other)
          · cases accepted
      | cons frame rest =>
          simp [accept] at accepted
  | _ =>
      exact carried.plain [] (by simp) notWriting (plain_accept rfl accepted)

/-- Every permitted step preserves the invariant of the body data. -/
theorem carried_preserved :
    machine.Preserves ChunksInPlace
      (fun c stack => Receiving c stack ∧ Carried c stack) := by
  apply preserves_of
  · rintro frame rest c next frames _ permitted ⟨receiving, carried⟩ executed
    exact ⟨receiving.tick executed,
      carried.tick receiving permitted executed⟩
  · rintro fired rest c ⟨receiving, carried⟩
    have popped : Carried c ([] ++ rest) :=
      carried.plain [_] (by simp [isInner]) carried.writeOnTop
        ⟨Plain.refl c, by simp⟩
    exact ⟨receiving.ret, popped⟩
  · rintro input stack c next frames boundary permitted
      ⟨receiving, carried⟩ accepted
    exact ⟨receiving.input boundary accepted,
      carried.input receiving boundary permitted accepted⟩
  · rintro stack c exception boundary ⟨receiving, carried⟩
    have notWriting := notWriting_of_boundary boundary carried.writeOnTop
    exact
      ⟨receiving.threw boundary,
        carried.same (fun other => SameData.of_plain (Plain.emit c rfl) other)
          notWriting (fun _ => rfl) (fun _ member => member)⟩

/-! ## No data is lost or duplicated -/

/-- What has been written for a finished chunked response is what was given. -/
def DataKept (c : ServerConnection) : Prop :=
  ∀ req response,
    (c.store req).response = some response →
    response.chunked = true →
    c.FinalGiven req →
    c.BlockWritten req →
    c.writtenData req = c.given req

theorem carried_initial (config : ConnectionConfig) :
    Carried (initial config) [] where
  writeOnTop := by simp
  writing := by simp
  each req :=
    { answeredBelow := by simp [Responded, initial]
      unanswered := fun _ =>
        ⟨by simp [Started, written, initial], by simp [given, initial],
          by simp [writtenData, written, initial]⟩
      waiting := by simp [initial]
      started := by simp [Started, written, initial]
      heldChunks := by simp [flushing]
      heldStarted := by simp [held]
      ended := by simp [BlockWritten, written, initial] }

/-- Where every chunk is in its place, no data is lost or duplicated. -/
theorem dataKept_of_chunksInPlace
    {config : ConnectionConfig}
    {labels : List Label}
    {final : Config}
    (ran : run? config labels = some final)
    (inPlace : machine.Guarded ChunksInPlace (start config) labels) :
    DataKept final.state := by
  obtain ⟨_, carried⟩ :=
    carried_preserved.run
      (⟨receiving_initial config, carried_initial config⟩ :
        Receiving (start config).state (start config).stack ∧
          Carried (start config).state (start config).stack)
      inPlace ran
  intro req _ _ _ _ block
  have one := carried.each req
  obtain ⟨completed, started⟩ := one.ended block
  have flushed : flushing final.stack req = [] := by
    by_contra waits
    exact one.heldChunks waits completed
  rw [one.started started, flushed, List.append_nil]

/-- The second response is captured in part; then the first one is given. -/
def capturedThenStreamed : List Label :=
  twoRequests ++
    ([.input (.respond 1 { chunked := true }), .input (.sendChunk 1 ['a']),
      .input (.respond 0 {}), .tick, .tick, .tick, .ret, .tick, .tick,
      .input (.sendChunk 1 ['b']),
      .input (.sendFinalChunk 1 ['c'])] : List Label)

theorem dataKept_capturedThenStreamed :
    ∃ final,
      run? {} capturedThenStreamed = some final ∧
        DataKept final.state ∧
        final.state.BlockWritten 1 ∧
        final.state.writtenData 1 = ['a', 'b', 'c'] := by
  have inPlace :
      machine.Guarded ChunksInPlace (start {}) capturedThenStreamed := by
    decide
  have ran : run? {} capturedThenStreamed = some _ := rfl
  exact ⟨_, ran, dataKept_of_chunksInPlace ran inPlace,
    ⟨.finalChunk 1 ['c'], by decide, rfl, rfl⟩, by decide⟩

/-- The final chunk of the second response is given while it is captured. -/
def capturedFinalChunk : List Label :=
  twoRequests ++
    ([.input (.respond 1 { chunked := true }), .input (.sendChunk 1 ['a']),
      .input (.sendFinalChunk 1 ['b']), .input (.respond 0 {}), .tick, .tick,
      .tick, .ret, .tick, .tick] : List Label)

/-- A captured final chunk is lost: only the chunks before it are written. -/
theorem capturedFinalChunk_lost :
    ∃ final,
      run? {} capturedFinalChunk = some final ∧
        final.state.given 1 = ['a', 'b'] ∧
        final.state.writtenData 1 = ['a'] ∧
        ¬ DataKept final.state := by
  refine ⟨_, rfl, by decide, by decide, ?_⟩
  intro kept
  have lost :=
    kept 1 _ rfl rfl ⟨['b'], by decide⟩
      ⟨_, List.getLast_mem (by decide), by decide, by decide⟩
  exact absurd lost (by decide)

end UniEventHttp.ServerConnection
