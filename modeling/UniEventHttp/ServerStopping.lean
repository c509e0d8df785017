import UniEventHttp.ServerSuspension

namespace UniEventHttp.ServerConnection

/-!
# Stopping a connection with pipelined requests

When `finish_request` has finished a response and the connection is closing or
stopping, it shuts the connection down, and no other request should be left.
This holds where the end of the connection is announced before the first
response of the deque is given, so that `write_next_response` drops the requests
behind it.
-/

/-- The connection will be shut down by `finish_request`. -/
def Ending (c : ServerConnection) : Prop :=
  c.closing = true ∨ c.stopping = true

/-- The first request of the deque has no response, or it is alone. -/
def FrontFree (c : ServerConnection) : Prop :=
  2 ≤ c.requests.length →
  ∀ req ∈ c.requests.head?, ¬ c.Responded req

/-- `finish_request` shuts the connection down only when no request is left. -/
def FinishesAlone (config : Config) : Prop :=
  config.stack.head? = some .finishReturn →
  config.state.Ending →
  config.state.requests = []

instance (c : ServerConnection) : Decidable c.Ending :=
  inferInstanceAs (Decidable (_ ∨ _))

instance (c : ServerConnection) : Decidable c.FrontFree :=
  inferInstanceAs (Decidable (_ → ∀ req ∈ c.requests.head?, _))

instance (config : Config) : Decidable (FinishesAlone config) :=
  inferInstanceAs (Decidable (_ → _ → _))

/-! ## The condition -/

/-- The step reads a request that is not the last one of the deque. -/
def readsNew (config : Config) : Label → Bool
  | .tick =>
      match config.stack with
      | .onRead (_ :: _) :: _ =>
          config.state.parsing.isNone ||
            config.state.requests.getLast? != config.state.parsing
      | _ => false
  | .input (.onReadError _) =>
      config.state.requests.getLast?.all fun req =>
        (config.state.store req).isDone
  | _ => false

/-- The response that a call gives for a request. -/
def respondCall? : Label → Option (Nat × ServerResponse)
  | .input (.respond req response) => some (req, response)
  | _ => none

/--
`graceful_stop` is not called when the first of several requests has a response
already, or when `finish_request` has others to go on with.
-/
def StopsBeforeResponse (config : Config) : Prop :=
  config.state.requests ≠ [] →
  Frame.finishReturn ∉ config.stack ∧
    (suspended config.stack = false → config.state.FrontFree)

/-- No request joins one that has a response when the connection is ending. -/
def JoinsBeforeResponse (config : Config) : Prop :=
  config.state.Ending →
  ∀ req ∈ config.state.requests.head?, ¬ config.state.Responded req

/--
When the connection is closing, a response in front of other requests ends it.
-/
def EndsBeforeOthers
    (config : Config)
    (req : Nat)
    (response : ServerResponse) : Prop :=
  config.state.closing = true ∧ config.state.stopping = false →
  2 ≤ config.state.requests.length ∧
    config.state.requests.head? = some req →
  response.keepAlive = false ∨
    (config.state.store req).headers.keepAlive = false

/-- The condition under which the end is announced before the response. -/
def StopsInTime (config : Config) (label : Label) : Prop :=
  NoNestedResponse config label ∧
    (label = .input .gracefulStop → StopsBeforeResponse config) ∧
    (readsNew config label = true → JoinsBeforeResponse config) ∧
    ∀ call ∈ respondCall? label, EndsBeforeOthers config call.1 call.2

instance (config : Config) : Decidable (StopsBeforeResponse config) :=
  inferInstanceAs (Decidable (_ → _ ∧ (_ → _)))

instance (config : Config) : Decidable (JoinsBeforeResponse config) :=
  inferInstanceAs (Decidable (_ → ∀ req ∈ config.state.requests.head?, _))

instance
    (config : Config)
    (req : Nat)
    (response : ServerResponse) :
    Decidable (EndsBeforeOthers config req response) :=
  inferInstanceAs (Decidable (_ → _ → _))

instance (config : Config) (label : Label) :
    Decidable (StopsInTime config label) :=
  inferInstanceAs (Decidable (_ ∧ _ ∧ _ ∧ _))

/-! ## The invariant -/

/-- The response of the request ends the connection. -/
def EndsConnection (c : ServerConnection) (req : Nat) : Prop :=
  ∀ response ∈ (c.store req).response,
    response.keepAlive = false ∨ (c.store req).headers.keepAlive = false

structure Stopping (c : ServerConnection) (stack : List Frame) : Prop where
  settled :
    suspended stack = false →
    stack.head? ≠ some .writeNextResponse →
    c.Ending →
    c.FrontFree
  writing :
    stack.head? = some .writeNextResponse →
    c.Ending →
    2 ≤ c.requests.length →
    ∀ req ∈ c.requests.head?, c.EndsConnection req
  finishing : Frame.finishReturn ∈ stack → c.Ending → c.requests = []
  heldResponded : ∀ req ∈ held stack, c.Responded req

/-- The invariant is kept where deque, responses and flags stay as they are. -/
theorem Stopping.same
    {c next : ServerConnection}
    {stack other : List Frame}
    (stopping : Stopping c stack)
    (requests : next.requests = c.requests)
    (ending : next.Ending → c.Ending)
    (responded : ∀ req, next.Responded req ↔ c.Responded req)
    (notWriting : Frame.writeNextResponse ∉ other)
    (windows :
      suspended other = false →
      2 ≤ c.requests.length →
      suspended stack = false ∧ stack.head? ≠ some .writeNextResponse)
    (returns : Frame.finishReturn ∈ other → Frame.finishReturn ∈ stack)
    (stillHeld : ∀ req ∈ held other, req ∈ held stack) :
    Stopping next other where
  settled notSuspended _ isEnding several req first := by
    rw [requests] at several first
    rw [responded]
    obtain ⟨wasNotSuspended, wasNotWriting⟩ := windows notSuspended several
    exact stopping.settled wasNotSuspended wasNotWriting (ending isEnding)
      several req first
  writing isHead := (notWriting (List.mem_of_mem_head? isHead)).elim
  finishing member isEnding := by
    rw [requests]
    exact stopping.finishing (returns member) (ending isEnding)
  heldResponded req member := by
    rw [responded]
    exact stopping.heldResponded req (stillHeld req member)

/-- Deque, responses and flags stay as they are, and no operation begins. -/
theorem Stopping.replace
    {c next : ServerConnection}
    {frames rest : List Frame}
    (top : List Frame)
    (stopping : Stopping c (top ++ rest))
    (requests : next.requests = c.requests)
    (ending : next.Ending → c.Ending)
    (responded : ∀ req, next.Responded req ↔ c.Responded req)
    (topNotWriting : Frame.writeNextResponse ∉ top)
    (topWindows : suspended top = false ∨ c.requests = [])
    (inner : ∀ frame ∈ frames, isInner frame = true)
    (noReturn : Frame.finishReturn ∉ frames)
    (notWriting : Frame.writeNextResponse ∉ frames ++ rest) :
    Stopping next (frames ++ rest) := by
  apply stopping.same requests ending responded notWriting
  · intro notSuspended several
    constructor
    · simp only [suspended_append, Bool.or_eq_false_iff] at notSuspended ⊢
      rcases topWindows with topFree | empty
      · exact ⟨topFree, notSuspended.2⟩
      · simp [empty] at several
    · intro isHead
      rcases List.mem_append.mp (List.mem_of_mem_head? isHead) with
        inTop | inRest
      · exact topNotWriting inTop
      · exact notWriting (List.mem_append_right _ inRest)
  · intro member
    rcases List.mem_append.mp member with inFrames | inRest
    · exact (noReturn inFrames).elim
    · exact List.mem_append_right _ inRest
  · intro req member
    rw [held_inner inner] at member
    simp only [held, List.filterMap_append, List.mem_append]
    exact Or.inr member

theorem plain_ending
    {c next : ServerConnection}
    (plain : Plain c next) :
    next.Ending → c.Ending := by
  simp [Ending, plain.closing, plain.stopping]

theorem plain_responded
    {c next : ServerConnection}
    (plain : Plain c next)
    (req : Nat) :
    next.Responded req ↔ c.Responded req := by
  simp [Responded, plain.store]

theorem Stopping.plain
    {c next : ServerConnection}
    {frames rest : List Frame}
    (top : List Frame)
    (stopping : Stopping c (top ++ rest))
    (topNotWriting : Frame.writeNextResponse ∉ top)
    (topWindows : suspended top = false ∨ c.requests = [])
    (restNotWriting : Frame.writeNextResponse ∉ rest)
    (plain : PlainStep c (.next next frames)) :
    Stopping next (frames ++ rest) := by
  apply stopping.replace top plain.1.requests (plain_ending plain.1)
    (plain_responded plain.1) topNotWriting topWindows
  · intro frame member
    have isPlain := plain.2 frame member
    unfold isPlainFrame at isPlain
    split at isPlain <;> simp_all [isInner]
  · intro member
    simpa [isPlainFrame] using plain.2 _ member
  · intro member
    rcases List.mem_append.mp member with inFrames | inRest
    · simpa [isPlainFrame] using plain.2 _ inFrames
    · exact restNotWriting inRest

/-! ## Responding -/

/-- Only a response to the one request of the deque makes the connection stop. -/
theorem ending_takeResponse
    {c : ServerConnection}
    {req : Nat}
    {response : ServerResponse}
    (isEnding : (c.takeResponse req response).Ending) :
    c.Ending ∨ c.requests.length = 1 := by
  simp only [Ending, takeResponse, emit, setResponse, setRequest,
    Bool.or_eq_true, decide_eq_true_eq] at isEnding
  rcases isEnding with closing | stopping | limit
  · exact Or.inl (Or.inl closing)
  · exact Or.inl (Or.inr stopping)
  · exact Or.inr limit.2.2

/-- While the connection is stopping a response is not keep-alive. -/
theorem keepAlive_takeResponse
    {c : ServerConnection}
    {req : Nat}
    {response stored : ServerResponse}
    (isStored :
      ((c.takeResponse req response).store req).response = some stored)
    (stopping : (c.takeResponse req response).stopping = true) :
    stored.keepAlive = false := by
  simp only [takeResponse, emit, setResponse, setRequest,
    Function.update_self, Option.some.injEq] at isStored stopping
  rw [← isStored]
  simp only [stopping, Bool.not_true, Bool.and_false]

theorem Stopping.respond
    {c next : ServerConnection}
    {req : Nat}
    {response : ServerResponse}
    {frames rest : List Frame}
    (top : List Frame)
    (receiving : Receiving c (top ++ rest))
    (stopping : Stopping c (top ++ rest))
    (topInner : ∀ frame ∈ top, isInner frame = true)
    (topNotWriting : Frame.writeNextResponse ∉ top)
    (topWindows : suspended top = false)
    (restNotWriting : Frame.writeNextResponse ∉ rest)
    (outside :
      suspended (top ++ rest) = true → c.requests.head? ≠ some req)
    (ends :
      c.closing = true ∧ c.stopping = false →
      2 ≤ c.requests.length ∧ c.requests.head? = some req →
      response.keepAlive = false ∨
        (c.store req).headers.keepAlive = false)
    (executed : c.respond req response = .next next frames) :
    Stopping next (frames ++ rest) := by
  obtain ⟨attached, unanswered, rfl, front, others, shape, outcome⟩ :=
    respond_next executed
  have sameDeque : (c.takeResponse req response).requests = c.requests := rfl
  have notHeld : req ∉ held rest := by
    intro member
    apply unanswered
    apply stopping.heldResponded req
    rw [held_inner topInner]
    exact member
  have heldResponded :
      ∀ frames,
        (∀ frame ∈ frames, isInner frame = true) →
        ∀ other ∈ held (frames ++ rest),
          (c.takeResponse req response).Responded other := by
    intro frames inner other member
    rw [held_inner inner] at member
    rw [responded_takeResponse]
    right
    apply stopping.heldResponded other
    rw [held_inner topInner]
    exact member
  rcases outcome with ⟨isFront, rfl⟩ | ⟨notFront, rfl⟩
  · have free : suspended (top ++ rest) = false := by
      rw [Bool.eq_false_iff]
      intro isSuspended
      exact outside isSuspended (by simp [shape, isFront])
    have restFree : suspended rest = false := by
      simp only [suspended_append, Bool.or_eq_false_iff] at free
      exact free.2
    refine
      { settled := fun _ notWriting => (notWriting rfl).elim
        writing := ?_
        finishing := ?_
        heldResponded := heldResponded _ (by simp [isInner]) }
    · intro _ isEnding several other first
      have isReq : other = req := by
        simp only [sameDeque, shape, List.head?_cons,
          Option.mem_def, Option.some.injEq] at first
        rw [← first, isFront]
      subst other
      intro stored isStored
      cases isStopping : (c.takeResponse req response).stopping with
      | true =>
          exact Or.inl (keepAlive_takeResponse isStored isStopping)
      | false =>
          have closing : c.closing = true := by
            rcases isEnding with closing | stops
            · exact closing
            · simp [isStopping] at stops
          have wasNotStopping : c.stopping = false := by
            simp only [takeResponse, emit, setResponse, setRequest,
              Bool.or_eq_false_iff] at isStopping
            exact isStopping.1
          have headers :
              ((c.takeResponse req response).store req).headers =
                (c.store req).headers := by
            simp [takeResponse, emit, setResponse, setRequest,
              ServerRequest.headers]
          rw [headers]
          refine (ends ⟨closing, wasNotStopping⟩
            ⟨several, by simp [shape, isFront]⟩).imp_left ?_
          intro ended
          simp only [takeResponse, emit, setResponse, setRequest,
            Function.update_self, Option.mem_def,
            Option.some.injEq] at isStored
          rw [← isStored]
          simp [ended]
    · intro member _
      have inRest : Frame.finishReturn ∈ rest := by
        simpa using member
      have isSuspended : suspended rest = true := by
        simp only [suspended, List.any_eq_true]
        exact ⟨_, inRest, rfl⟩
      simp [restFree] at isSuspended
  · -- a request behind the first one changes neither the front nor the flags
    have reqBehind : 2 ≤ c.requests.length := by
      have inDeque : req ∈ c.requests := by
        rcases receiving.located req attached with inside | isHeld
        · exact inside
        · rw [held_inner topInner] at isHeld
          exact (notHeld isHeld).elim
      rw [shape] at inDeque ⊢
      have inOthers : req ∈ others :=
        (List.mem_cons.mp inDeque).resolve_left (Ne.symm notFront)
      have := List.length_pos_of_mem inOthers
      simp only [List.length_cons]
      omega
    have ending :
        (c.takeResponse req response).Ending → c.Ending := by
      intro isEnding
      rcases ending_takeResponse isEnding with was | alone
      · exact was
      · omega
    have notSuspendedTop :
        suspended ([] ++ rest) = false → suspended (top ++ rest) = false := by
      intro notSuspended
      simp only [List.nil_append] at notSuspended
      simp [topWindows, notSuspended]
    refine
      { settled := ?_
        writing := fun isHead =>
          (restNotWriting (List.mem_of_mem_head? isHead)).elim
        finishing := ?_
        heldResponded := heldResponded [] (by simp) }
    · intro notSuspended _ isEnding several other first
      rw [sameDeque] at first several
      have topHead : (top ++ rest).head? ≠ some .writeNextResponse := by
        intro isHead
        rcases List.mem_append.mp (List.mem_of_mem_head? isHead) with
          inTop | inRest
        · exact topNotWriting inTop
        · exact restNotWriting inRest
      have free :=
        stopping.settled (notSuspendedTop notSuspended) topHead
          (ending isEnding) several other first
      rw [responded_takeResponse]
      rintro (same | responded)
      · simp only [shape, List.head?_cons, Option.mem_def,
          Option.some.injEq] at first
        exact notFront (first.trans same)
      · exact free responded
    · intro member isEnding
      rw [sameDeque]
      exact stopping.finishing (List.mem_append_right _ member)
        (ending isEnding)

theorem flags_writeChunks
    (c : ServerConnection)
    (req : Nat)
    (chunks : List Data) :
    (c.writeChunks req chunks).closing = c.closing ∧
      (c.writeChunks req chunks).stopping = c.stopping := by
  induction chunks generalizing c with
  | nil =>
      exact ⟨rfl, rfl⟩
  | cons data rest inductionHypothesis =>
      exact inductionHypothesis _

theorem Stopping.writeNextResponse
    {c next : ServerConnection}
    {rest frames : List Frame}
    (layered : Layered (.writeNextResponse :: rest))
    (stopping : Stopping c (.writeNextResponse :: rest))
    (executed : c.writeNextResponse = .next next frames) :
    Stopping next (frames ++ rest) := by
  have restFree : suspended rest = false := layered.not_suspended rfl
  have restNotWriting : Frame.writeNextResponse ∉ rest := layered.writeOnTop
  have noReturn : Frame.finishReturn ∉ rest := by
    intro member
    have isSuspended : suspended rest = true := by
      simp only [suspended, List.any_eq_true]
      exact ⟨_, member, rfl⟩
    simp [restFree] at isSuspended
  have sameHeld : held (.writeNextResponse :: rest) = held rest := rfl
  obtain ⟨req, others, given, shape, stored, outcome⟩ :=
    writeNextResponse_next executed
  have responded : c.Responded req := by
    simp [Responded, stored]
  have keepAlive :
      (c.prepared given).withoutTmpChunks.keepAlive = given.keepAlive := by
    unfold ServerResponse.withoutTmpChunks
    split <;> rfl
  -- a head that leaves other requests in the deque announces no end
  have headed :
      ∀ middle,
        WritesHead c req others (c.prepared given).withoutTmpChunks middle →
        middle.requests = c.requests ∧
          (∀ other, middle.Responded other ↔ c.Responded other) ∧
          (middle.Ending → ¬ 2 ≤ c.requests.length) := by
    intro middle writes
    cases writes with
    | keepAlive kept requestKept =>
        refine ⟨rfl, responded_writeHead c _ responded, ?_⟩
        intro isEnding several
        have ends :=
          stopping.writing rfl isEnding several req (by simp [shape])
            given stored
        rw [keepAlive] at kept
        simp [kept, requestKept] at ends
    | closing alone =>
        refine ⟨(Kept.startClosing _ req).requests, ?_, ?_⟩
        · intro other
          unfold Responded
          rw [store_startClosing]
          exact responded_writeHead c _ responded other
        · intro _ several
          simp [shape, alone] at several
  have settle :
      ∀ middle frames,
        middle.requests = c.requests →
        (∀ other, middle.Responded other ↔ c.Responded other) →
        (middle.Ending → ¬ 2 ≤ c.requests.length) →
        (∀ frame ∈ frames, isInner frame = true) →
        Frame.writeNextResponse ∉ frames →
        Frame.finishReturn ∉ frames →
        Stopping middle (frames ++ rest) := by
    intro middle frames requests sameResponded noEnd inner notWriting notReturn
    have notMember : Frame.writeNextResponse ∉ frames ++ rest := by
      simpa using ⟨notWriting, restNotWriting⟩
    refine
      { settled := ?_
        writing := fun isHead =>
          (notMember (List.mem_of_mem_head? isHead)).elim
        finishing := ?_
        heldResponded := ?_ }
    · intro _ _ isEnding several
      rw [requests] at several
      exact (noEnd isEnding several).elim
    · intro member
      rcases List.mem_append.mp member with inFrames | inRest
      · exact (notReturn inFrames).elim
      · exact (noReturn inRest).elim
    · intro other member
      rw [held_inner inner, ← sameHeld] at member
      rw [sameResponded]
      exact stopping.heldResponded other member
  cases outcome with
  | finish writes _ =>
      obtain ⟨requests, sameResponded, noEnd⟩ := headed _ writes
      exact settle _ _ requests sameResponded noEnd (by simp [isInner])
        (by simp) (by simp)
  | flush writes _ =>
      obtain ⟨requests, sameResponded, noEnd⟩ := headed _ writes
      apply settle _ [] <;> try simp
      · rw [requests_writeChunks, requests]
      · intro other
        unfold Responded
        rw [store_writeChunks]
        exact sameResponded other
      · intro isEnding
        unfold Ending at isEnding
        rw [(flags_writeChunks _ _ _).1, (flags_writeChunks _ _ _).2] at isEnding
        simpa using noEnd isEnding
  | hold nonempty =>
      refine
        { settled := by simp [isWindow]
          writing := by simp
          finishing := ?_
          heldResponded := ?_ }
      · intro member
        have inRest : Frame.finishReturn ∈ rest := by simpa using member
        exact (noReturn inRest).elim
      · intro other member
        have sameResponded :
            ((c.writeHead req
                (c.prepared given).withoutTmpChunks).startClosing
              req).Responded other ↔ c.Responded other := by
          unfold Responded
          rw [store_startClosing]
          exact responded_writeHead c _ responded other
        refine sameResponded.mpr ?_
        simp only [held, List.cons_append, List.nil_append,
          List.filterMap_cons, held?, List.mem_cons] at member
        rcases member with same | isHeld
        · exact same ▸ responded
        · apply stopping.heldResponded other
          rw [sameHeld]
          exact isHeld

theorem Stopping.finishRequest
    {c next : ServerConnection}
    {rest frames : List Frame}
    (layered : Layered (.finishRequest :: rest))
    (stopping : Stopping c (.finishRequest :: rest))
    (executed : c.finishRequest = .next next frames) :
    Stopping next (frames ++ rest) := by
  have restFree : suspended rest = false := layered.not_suspended rfl
  have restNotWriting : Frame.writeNextResponse ∉ rest := layered.writeOnTop
  have noReturn : Frame.finishReturn ∉ rest := by
    intro member
    have isSuspended : suspended rest = true := by
      simp only [suspended, List.any_eq_true]
      exact ⟨_, member, rfl⟩
    simp [restFree] at isSuspended
  obtain ⟨req, others, shape, completed, outcome⟩ :=
    finishRequest_next executed
  have responded : c.Responded req := by
    unfold Completed ServerRequest.responseCompleted at completed
    unfold Responded
    cases stored : (c.store req).response with
    | none =>
        simp [stored] at completed
    | some response =>
        rfl
  have sameResponded :
      ∀ request : ServerRequest,
        request.response = (c.store req).response →
        ∀ other,
          (c.setRequest req request).Responded other ↔ c.Responded other := by
    intro request sameResponse other
    by_cases same : other = req <;> simp [Responded, same, sameResponse]
  rcases outcome with ⟨_, rfl, rfl⟩ | ⟨_, rfl, rfl⟩
  · exact stopping.replace [_] rfl id (sameResponded _ rfl) (by simp)
      (Or.inl rfl) (by simp) (by simp) (by simpa using restNotWriting)
  · -- an announced end leaves no request behind the finished one
    have alone : c.Ending → others = [] := by
      intro isEnding
      by_contra nonempty
      have several : 2 ≤ c.requests.length := by
        have := List.length_pos_iff.mpr nonempty
        simp only [shape, List.length_cons]
        omega
      have free :=
        stopping.settled (by simp [isWindow, restFree]) (by simp) isEnding
          several req (by simp [shape])
      exact free responded
    refine
      { settled := ?_
        writing := by simp
        finishing := fun _ => alone
        heldResponded := ?_ }
    · intro notSuspended
      simp [isWindow] at notSuspended
    · intro other member
      refine (sameResponded { c.store req with connection := false } rfl
        other).mpr ?_
      exact stopping.heldResponded other member

/-! ## Reading -/

/-- A request joins the deque only in front of the announced end. -/
theorem Stopping.parse
    {c next : ServerConnection}
    {result : Parsed}
    {rest : List Parsed}
    {req : Nat}
    {stack : List Frame}
    (receiving : Receiving c [.onRead (result :: rest)])
    (stopping : Stopping c [.onRead (result :: rest)])
    (permitted :
      readsNew ⟨c, [.onRead (result :: rest)], none⟩ .tick = true →
      JoinsBeforeResponse ⟨c, [.onRead (result :: rest)], none⟩)
    (parses : Parses c result next req)
    (notWriting : Frame.writeNextResponse ∉ stack)
    (noReturn : Frame.finishReturn ∉ stack)
    (heldNone : held stack = []) :
    Stopping next stack where
  settled := by
    intro _ _ isEnding several front first
    have wasEnding : c.Ending := by
      simpa [Ending, parses.closing, parses.stopping] using isEnding
    have isReq : c.parsing = some req ∨ c.parsing = none ∧ req = c.nextId := by
      obtain ⟨_, _, ⟨parsing, _⟩ | ⟨parsing, _, isNext, _⟩⟩ := parses.origin
      · exact Or.inl parsing
      · exact Or.inr ⟨parsing, isNext⟩
    by_cases last : c.requests.getLast? = some req
    · have sameDeque : next.requests = c.requests := by
        simp [parses.requests, last]
      rw [sameDeque] at several first
      have below :=
        receiving.requestsBelow front (List.mem_of_mem_head? first)
      rw [parses.responded below]
      exact stopping.settled (by simp [isWindow]) (by simp) wasEnding
        several front first
    · have newDeque : next.requests = c.requests ++ [req] := by
        simp [parses.requests, last]
      have nonempty : c.requests ≠ [] := by
        intro empty
        simp [newDeque, empty] at several
      have wasFirst : front ∈ c.requests.head? := by
        rw [newDeque] at first
        obtain ⟨old, others, shape⟩ := List.exists_cons_of_ne_nil nonempty
        simpa [shape] using first
      have below :=
        receiving.requestsBelow front (List.mem_of_mem_head? wasFirst)
      rw [parses.responded below]
      refine permitted ?_ wasEnding front wasFirst
      rcases isReq with parsing | ⟨parsing, _⟩
      · simp [readsNew, parsing, last]
      · simp [readsNew, parsing]
  writing isHead := (notWriting (List.mem_of_mem_head? isHead)).elim
  finishing member := (noReturn member).elim
  heldResponded := by simp [heldNone]

theorem Stopping.onReadLoop
    {c next : ServerConnection}
    {buf : List Parsed}
    {frames : List Frame}
    (receiving : Receiving c [.onRead buf])
    (stopping : Stopping c [.onRead buf])
    (permitted :
      readsNew ⟨c, [.onRead buf], none⟩ .tick = true →
      JoinsBeforeResponse ⟨c, [.onRead buf], none⟩)
    (executed : c.onReadLoop buf = .next next frames) :
    Stopping next frames := by
  cases buf with
  | nil =>
      cases executed
      exact stopping.same rfl id (fun _ => Iff.rfl) (by simp)
        (fun _ _ => ⟨rfl, by simp⟩) (by simp) (by simp [held])
  | cons result rest =>
      obtain ⟨parsed, req, parses, reads⟩ := onReadLoop_next executed
      have parse :
          ∀ stack,
            Frame.writeNextResponse ∉ stack →
            Frame.finishReturn ∉ stack →
            held stack = [] →
            Stopping parsed stack :=
        fun _ => Stopping.parse receiving stopping permitted parses
      cases reads with
      | route _ _ =>
          have routed :=
            parse
              [.fire (.routeEvent req),
                .routed req result.isDone
                  (if result.isDone then rest else [])]
              (by simp) (by simp) rfl
          have sameResponded :
              ∀ other,
                (parsed.setRequest req
                  { parsed.store req with routed := true }).Responded other ↔
                  parsed.Responded other := by
            intro other
            by_cases same : other = req <;> simp [Responded, same]
          exact routed.same rfl id sameResponded (by simp)
            (fun _ _ => ⟨rfl, by simp⟩) (by simp) (fun _ => id)
      | _ =>
          exact parse _ (by simp) (by simp) rfl

theorem Stopping.readFails
    {c next : ServerConnection}
    {req : Nat}
    {error : ErrorCode}
    (receiving : Receiving c [])
    (stopping : Stopping c [])
    (permitted :
      readsNew ⟨c, [], none⟩ (.input (.onReadError error)) = true →
      JoinsBeforeResponse ⟨c, [], none⟩)
    (fails : ReadFails c next req) :
    Stopping next [.requestError req error] where
  settled := by
    intro _ _ isEnding several front first
    have wasEnding : c.Ending := by
      simpa [Ending, fails.closing, fails.stopping] using isEnding
    rcases fails.origin with
      ⟨_, _, requests, _, _, stored⟩ |
        ⟨lastDone, isNext, requests, _, _, stored⟩
    · rw [requests] at several first
      have free :=
        stopping.settled rfl (by simp) wasEnding several front first
      by_cases same : front = req
      · subst front
        simpa [Responded, stored] using free
      · simpa [Responded, fails.others front same] using free
    · have nonempty : c.requests ≠ [] := by
        intro empty
        simp [requests, empty] at several
      have wasFirst : front ∈ c.requests.head? := by
        rw [requests] at first
        obtain ⟨old, others, shape⟩ := List.exists_cons_of_ne_nil nonempty
        simpa [shape] using first
      have below :=
        receiving.requestsBelow front (List.mem_of_mem_head? wasFirst)
      have different : front ≠ req := by omega
      have joins : readsNew ⟨c, [], none⟩ (.input (.onReadError error)) := by
        cases last : c.requests.getLast? with
        | none =>
            simp [readsNew, last]
        | some newest =>
            simpa [readsNew, last, Done] using lastDone newest last
      have free := permitted joins wasEnding front wasFirst
      simpa [Responded, fails.others front different] using free
  writing := by simp
  finishing := by simp
  heldResponded := by simp [held, held?]

/-! ## Every step -/

theorem Stopping.dropRequests
    {c next : ServerConnection}
    {error : Option ErrorCode}
    {returns : DropReturn}
    {rest frames : List Frame}
    (layered : Layered (.dropRequests error returns :: rest))
    (stopping : Stopping c (.dropRequests error returns :: rest))
    (executed : c.dropRequests error returns = .next next frames) :
    Stopping next (frames ++ rest) := by
  have restNotWriting : Frame.writeNextResponse ∉ rest := layered.writeOnTop
  unfold ServerConnection.dropRequests at executed
  split at executed
  · rename_i req others shape
    cases executed
    have sameResponded :
        ∀ other,
          ((c.cleanupRequest req others).emit
            (.dropped req error)).Responded other ↔ c.Responded other := by
      intro other
      by_cases same : other = req <;>
        simp [Responded, cleanupRequest, emit, setRequest, same]
    refine
      { settled := by simp [isWindow]
        writing := by simp
        finishing := ?_
        heldResponded := ?_ }
    · intro member isEnding
      have wasMember :
          Frame.finishReturn ∈ Frame.dropRequests error returns :: rest := by
        simpa using member
      have empty := stopping.finishing wasMember isEnding
      simp [shape] at empty
    · intro other member
      exact (sameResponded other).mpr (stopping.heldResponded other member)
  · rename_i empty
    split at executed
    · cases executed
      exact stopping.plain [_] (by simp) (Or.inr empty) restNotWriting
        ⟨Plain.refl c, by simp⟩
    · cases executed
      exact stopping.plain [_] (by simp) (Or.inr empty) restNotWriting
        (plain_remove c)
    · -- the held request is alone when it is put back
      rename_i req tmpChunks
      have restFree : suspended rest = false := layered.not_suspended rfl
      have noReturn := noReturn_of_free restFree
      have heldResponded : ∀ other ∈ held rest, c.Responded other := by
        intro other member
        apply stopping.heldResponded other
        exact List.mem_cons_of_mem _ member
      unfold flushResponse at executed
      split at executed <;> cases executed
      · refine
          { settled := ?_
            writing := by simp
            finishing := fun member => (noReturn (by simpa using member)).elim
            heldResponded := heldResponded }
        intro _ _ _ several
        simp at several
      · refine
          { settled := ?_
            writing := fun isHead =>
              (restNotWriting (List.mem_of_mem_head? isHead)).elim
            finishing := fun member => (noReturn member).elim
            heldResponded := ?_ }
        · intro _ _ _ several
          simp [requests_writeChunks] at several
        · intro other member
          unfold Responded
          rw [store_writeChunks]
          exact heldResponded other member

theorem Stopping.finishReturn
    {c next : ServerConnection}
    {rest frames : List Frame}
    (layered : Layered (.finishReturn :: rest))
    (stopping : Stopping c (.finishReturn :: rest))
    (executed : c.finishReturn = .next next frames) :
    Stopping next (frames ++ rest) := by
  have restFree : suspended rest = false := layered.not_suspended rfl
  have noReturn := noReturn_of_free restFree
  have restNotWriting : Frame.writeNextResponse ∉ rest := layered.writeOnTop
  have settle :
      ∀ frames,
        c.requests = next.requests →
        (next.Ending → c.Ending) →
        (∀ other, next.Responded other ↔ c.Responded other) →
        (∀ frame ∈ frames, isInner frame = true) →
        Frame.finishReturn ∉ frames →
        (Frame.writeNextResponse ∈ frames → ¬ c.Ending) →
        Stopping next (frames ++ rest) := by
    intro frames requests ending responded inner notReturn notEnding
    have alone : next.Ending → next.requests = [] := by
      intro isEnding
      rw [← requests]
      exact stopping.finishing (by simp) (ending isEnding)
    refine
      { settled := ?_
        writing := ?_
        finishing := ?_
        heldResponded := ?_ }
    · intro _ _ isEnding several
      simp [alone isEnding] at several
    · intro _ isEnding several
      simp [alone isEnding] at several
    · intro _ isEnding
      exact alone isEnding
    · intro other member
      rw [held_inner inner] at member
      rw [responded]
      exact stopping.heldResponded other member
  rcases finishReturn_plain executed with
    plain | ⟨closing, stops, rfl, rfl⟩
  · apply settle frames plain.1.requests.symm (plain_ending plain.1)
      (plain_responded plain.1)
    · intro frame member
      have isPlain := plain.2 frame member
      unfold isPlainFrame at isPlain
      split at isPlain <;> simp_all [isInner]
    · intro member
      simpa [isPlainFrame] using plain.2 _ member
    · intro member
      simpa [isPlainFrame] using plain.2 _ member
  · apply settle [_] rfl id (fun _ => Iff.rfl) (by simp [isInner]) (by simp)
    intro _ isEnding
    simp [Ending, closing, stops] at isEnding

theorem Stopping.tick
    {frame : Frame}
    {rest frames : List Frame}
    {c next : ServerConnection}
    (stopping : Stopping c (frame :: rest))
    (receiving : Receiving c (frame :: rest))
    (layered : Layered (frame :: rest))
    (permitted : StopsInTime ⟨c, frame :: rest, none⟩ .tick)
    (executed : code frame c = .next next frames) :
    Stopping next (frames ++ rest) := by
  have restNotWriting : Frame.writeNextResponse ∉ rest := layered.writeOnTop
  have runs :
      runsPlain frame = true →
      isWindow frame = false →
      frame ≠ .writeNextResponse →
      Stopping next (frames ++ rest) := by
    intro runsPlain noWindow notWrite
    have plain := plain_code c runsPlain
    rw [executed] at plain
    exact stopping.plain [frame] (by simpa using Ne.symm notWrite)
      (Or.inl (by simp [noWindow])) restNotWriting plain
  have reads :
      ((∃ req done buf, frame = .routed req done buf) ∨
        ∃ req done buf, frame = .received req done buf) →
      Frame.finishReturn ∉ frames →
      Stopping next (frames ++ rest) := by
    intro between notReturn
    obtain ⟨plain, notWriting, notDropping⟩ := reader_next between executed
    have alone : rest = [] := by
      rcases between with ⟨_, _, _, rfl⟩ | ⟨_, _, _, rfl⟩ <;>
        exact receiving.alone rfl
    subst rest
    have noWindow : isWindow frame = false ∧ frame ≠ .writeNextResponse := by
      rcases between with ⟨_, _, _, rfl⟩ | ⟨_, _, _, rfl⟩ <;>
        simp [isWindow]
    apply stopping.same plain.requests (plain_ending plain)
      (plain_responded plain) (by simpa using notWriting)
    · intro _ _
      simp [noWindow.1, noWindow.2]
    · intro member
      exact (notReturn (by simpa using member)).elim
    · intro req member
      rw [List.append_nil] at member
      obtain ⟨other, inFrames, isHeld⟩ := List.mem_filterMap.mp member
      unfold held? at isHeld
      split at isHeld
      · exact (notDropping _ _ inFrames).elim
      · cases isHeld
  cases frame with
  | onRead buf =>
      have alone := receiving.alone rfl
      subst rest
      simpa using
        Stopping.onReadLoop receiving stopping permitted.2.2.1 executed
  | routed req done buf =>
      apply reads (Or.inl ⟨req, done, buf, rfl⟩)
      simp only [code, routed] at executed
      split at executed
      · cases executed
        simp
      · split at executed <;> cases executed <;> simp
  | received req done buf =>
      apply reads (Or.inr ⟨req, done, buf, rfl⟩)
      simp only [code, received] at executed
      split at executed
      · cases executed
        simp
      · split at executed
        · cases executed
          simp
        · split at executed <;> cases executed <;> simp
  | requestError req error =>
      cases executed
      exact stopping.replace [_] rfl id (fun _ => Iff.rfl) (by simp)
        (Or.inl rfl) (by simp [isInner]) (by simp)
        (by simpa using restNotWriting)
  | requestErrorReturn req =>
      simp only [code, requestErrorReturn] at executed
      split at executed
      · refine Stopping.respond [_] receiving stopping (by simp [isInner])
          (by simp) rfl restNotWriting ?_ ?_ executed
        · intro isSuspended
          have restFree : suspended rest = false :=
            layered.not_suspended rfl
          simp [isWindow, restFree] at isSuspended
        · intro _ _
          exact Or.inl rfl
      · rename_i response stored
        split at executed
        · cases executed
          refine stopping.replace [_] rfl id ?_ (by simp) (Or.inl rfl)
            (by simp) (by simp) (by simpa using restNotWriting)
          intro other
          by_cases same : other = req <;> simp [Responded, same, stored]
        · cases executed
          exact stopping.plain [_] (by simp) (Or.inl rfl) restNotWriting
            ⟨Plain.refl c, by simp⟩
  | writeNextResponse =>
      exact Stopping.writeNextResponse layered stopping executed
  | finishRequest =>
      exact Stopping.finishRequest layered stopping executed
  | finishReturn =>
      exact Stopping.finishReturn layered stopping executed
  | dropRequests error returns =>
      exact Stopping.dropRequests layered stopping executed
  | _ =>
      exact runs rfl rfl (by simp)

theorem Stopping.input
    {input : Input}
    {stack frames : List Frame}
    {c next : ServerConnection}
    (stopping : Stopping c stack)
    (receiving : Receiving c stack)
    (layered : Layered stack)
    (boundary : machine.atBoundary stack = true)
    (permitted : StopsInTime ⟨c, stack, none⟩ (.input input))
    (accepted : accept input stack.head? c = some (.next next frames)) :
    Stopping next (frames ++ stack) := by
  have notWriting := notWriting_of_boundary boundary layered.writeOnTop
  have calls :
      ∀ frames,
        next.requests = c.requests →
        (next.Ending → c.Ending) →
        (∀ other, next.Responded other ↔ c.Responded other) →
        (∀ frame ∈ frames, isInner frame = true) →
        Frame.finishReturn ∉ frames →
        Frame.writeNextResponse ∉ frames →
        Stopping next (frames ++ stack) := by
    intro frames requests ending responded inner noReturn notWrite
    exact stopping.replace [] requests ending responded (by simp)
      (Or.inl rfl) inner noReturn (by simpa using ⟨notWrite, notWriting⟩)
  cases input with
  | respond req response =>
      simp only [accept] at accepted
      split at accepted
      · cases accepted
      · simp only [Option.some.injEq, requestRespond] at accepted
        split at accepted
        · exact Stopping.respond [] receiving stopping (by simp) (by simp)
            rfl notWriting (permitted.1 req rfl)
            (permitted.2.2.2 (req, response) rfl) accepted
        · cases accepted
          exact stopping
  | sendContinue req =>
      simp only [accept, Option.some.injEq, requestSendContinue,
        sendContinue] at accepted
      split at accepted
      · split at accepted
        · cases accepted
        · split at accepted
          · cases accepted
            exact stopping
          · split at accepted
            · cases accepted
              exact stopping
            · split at accepted
              · cases accepted
              · cases accepted
                exact calls [] rfl id (fun _ => Iff.rfl) (by simp) (by simp)
                  (by simp)
      · cases accepted
        exact stopping
  | sendChunk req data =>
      simp only [accept, Option.some.injEq] at accepted
      rcases responseSend_next accepted with
        ⟨rfl, rfl⟩ | ⟨response, stored, _, sent⟩
      · exact stopping
      · simp only [sendChunk] at sent
        split at sent
        · cases sent
        · split at sent
          · cases sent
            exact calls [] rfl id (fun _ => Iff.rfl) (by simp) (by simp)
              (by simp)
          · split at sent
            · cases sent
              exact calls [] rfl id (fun _ => Iff.rfl) (by simp) (by simp)
                (by simp)
            · cases sent
              exact calls [] rfl id (responded_setResponse _ req _ stored)
                (by simp) (by simp) (by simp)
  | sendFinalChunk req data =>
      simp only [accept, Option.some.injEq] at accepted
      rcases responseSend_next accepted with
        ⟨rfl, rfl⟩ | ⟨response, stored, _, sent⟩
      · exact stopping
      · simp only [sendFinalChunk] at sent
        split at sent
        · cases sent
        · split at sent
          · cases sent
            exact calls [_] rfl id (responded_setResponse _ req _ stored)
              (by simp [isInner]) (by simp) (by simp)
          · cases sent
            exact calls [] rfl id (responded_setResponse _ req _ stored)
              (by simp) (by simp) (by simp)
  | upgrade req =>
      simp only [accept, Option.some.injEq, requestUpgrade] at accepted
      split at accepted
      · cases accepted
        exact stopping
      · split at accepted
        · cases accepted
          exact stopping
        · unfold ServerConnection.upgrade at accepted
          split at accepted
          · cases accepted
            have sameResponded :
                ∀ other,
                  ((c.setRequest req
                    { c.store req with
                      connection := false }).Responded other ↔
                    c.Responded other) := by
              intro other
              by_cases same : other = req <;> simp [Responded, same]
            refine
              { settled := ?_
                writing := by simp
                finishing := fun _ _ => rfl
                heldResponded := ?_ }
            · intro _ _ _ several
              simp [cleanupRequest, emit, setRequest] at several
            · intro other member
              exact (sameResponded other).mpr
                (stopping.heldResponded other member)
          · cases accepted
  | enablePartial req =>
      cases accepted
      refine calls [] rfl id ?_ (by simp) (by simp) (by simp)
      intro other
      by_cases same : other = req <;> simp [Responded, same]
  | gracefulStop =>
      simp only [accept, Option.some.injEq, gracefulStop] at accepted
      split at accepted
      · have plain := plain_doClose c (some (.http .serverStopping)) true
        rw [accepted] at plain
        exact stopping.plain [] (by simp) (Or.inl rfl) notWriting plain
      · rename_i nonempty
        cases accepted
        obtain ⟨noReturn, free⟩ := permitted.2.1 rfl nonempty
        exact
          { settled := fun notSuspended _ _ => free notSuspended
            writing := fun isHead =>
              (notWriting (List.mem_of_mem_head? isHead)).elim
            finishing := fun member => (noReturn member).elim
            heldResponded := stopping.heldResponded }
  | onRead buf =>
      cases stack with
      | nil =>
          simp only [List.head?_nil, accept] at accepted
          split at accepted <;> cases accepted
          exact
            { settled := by
                intro _ _
                exact stopping.settled rfl (by simp)
              writing := by simp
              finishing := by simp
              heldResponded := by simp [held, held?] }
      | cons frame rest =>
          simp [accept] at accepted
  | onReadError error =>
      cases stack with
      | nil =>
          simp only [List.head?_nil, accept] at accepted
          split at accepted
          · simp only [Option.some.injEq] at accepted
            obtain ⟨req, rfl, fails⟩ := onReadError_next accepted
            have between := boundary_between receiving boundary
            have ended :
                Kept c
                  { c with stream := { c.stream with ended := true } } :=
              ⟨rfl, rfl, rfl, fun _ => Iff.rfl, fun _ => Iff.rfl,
                fun _ => by simp [Silent, canRead]⟩
            have endedStopping :
                Stopping
                  { c with stream := { c.stream with ended := true } } [] :=
              { settled := stopping.settled
                writing := by simp
                finishing := by simp
                heldResponded := by simp [held] }
            exact Stopping.readFails (receiving.same ended between)
              endedStopping permitted.2.2.1 fails
          · cases accepted
      | cons frame rest =>
          simp [accept] at accepted
  | _ =>
      exact stopping.plain [] (by simp) (Or.inl rfl) notWriting
        (plain_accept rfl accepted)

/-- Every permitted step preserves the invariant of stopping. -/
theorem stopping_preserved :
    machine.Preserves StopsInTime
      (fun c stack =>
        Receiving c stack ∧ Layered stack ∧ Stopping c stack) := by
  apply preserves_of
  · intro frame rest c next frames _ permitted
      ⟨receiving, layered, stopping⟩ executed
    exact ⟨receiving.tick executed, layered.tick executed,
      stopping.tick receiving layered permitted executed⟩
  · intro fired rest c ⟨receiving, layered, stopping⟩
    have popped : Stopping c ([] ++ rest) :=
      stopping.plain [.callback fired] (by simp) (Or.inl rfl)
        layered.writeOnTop ⟨Plain.refl c, by simp⟩
    exact ⟨receiving.ret, layered.ret, popped⟩
  · intro input stack c next frames boundary permitted
      ⟨receiving, layered, stopping⟩ accepted
    exact ⟨receiving.input boundary accepted,
      layered.input boundary permitted.1 accepted,
      stopping.input receiving layered boundary permitted accepted⟩
  · intro stack c exception boundary ⟨receiving, layered, stopping⟩
    have notWriting := notWriting_of_boundary boundary layered.writeOnTop
    have same : Stopping (c.emit (.threw exception)) ([] ++ stack) :=
      stopping.plain [] (by simp) (Or.inl rfl) notWriting
        ⟨Plain.emit c rfl, by simp⟩
    exact ⟨receiving.threw boundary, layered, same⟩

theorem stopping_initial (config : ConnectionConfig) :
    Stopping (initial config) [] where
  settled := by simp [FrontFree, initial]
  writing := by simp
  finishing := by simp
  heldResponded := by simp [held]

/-- Where the end is announced in time, `finish_request` drops no request. -/
theorem finishesAlone_of_stopsInTime
    {config : ConnectionConfig}
    {labels : List Label}
    {final : Config}
    (ran : run? config labels = some final)
    (inTime : machine.Guarded StopsInTime (start config) labels) :
    FinishesAlone final := by
  have holds :=
    stopping_preserved.run
      (⟨receiving_initial config, layered_nil, stopping_initial config⟩ :
        Receiving (start config).state (start config).stack ∧
          Layered (start config).stack ∧
            Stopping (start config).state (start config).stack)
      inTime ran
  intro isHead isEnding
  exact holds.2.2.finishing (List.mem_of_mem_head? isHead) isEnding

/-- The connection is stopped before the first of two responses is given. -/
def stoppedBeforeResponse : List Label :=
  twoRequests ++
    ([.input .gracefulStop, .input (.respond 0 {}), .tick, .tick, .tick, .ret,
      .tick, .tick, .ret, .tick, .tick, .tick, .ret] : List Label)

theorem finishesAlone_stoppedBeforeResponse :
    ∃ final,
      run? {} stoppedBeforeResponse = some final ∧
        final.stack.head? = some .finishReturn ∧
        final.state.stopping = true ∧
        FinishesAlone final := by
  have inTime :
      machine.Guarded StopsInTime (start {}) stoppedBeforeResponse := by
    decide
  have ran : run? {} stoppedBeforeResponse = some _ := rfl
  exact ⟨_, ran, rfl, rfl, finishesAlone_of_stopsInTime ran inTime⟩

/-- The connection is stopped while the first of two responses is streamed. -/
def stoppedWhileStreaming : List Label :=
  twoRequests ++
    ([.input (.respond 0 { chunked := true }), .tick, .input .gracefulStop,
      .input (.sendFinalChunk 0 []), .tick, .tick, .ret] : List Label)

/-- Stopping in the middle of a response leaves the requests behind it. -/
theorem stoppedWhileStreaming_requests :
    ∃ final,
      run? {} stoppedWhileStreaming = some final ∧
        final.state.requests = [1] ∧
        ¬ FinishesAlone final := by
  exact ⟨_, rfl, rfl, by decide⟩

end UniEventHttp.ServerConnection
