import UniEventHttp.ServerDeferring

namespace UniEventHttp.ServerConnection

/-!
# Progress of the first request

While a connection is open, the response to the first request is written as soon
as it is given, and a complete response is finished or waits for the end of its
request, which can still arrive.  A request error breaks this when the request
has been answered before its end, or when its end has not arrived.
-/

/-! ## The property -/

/-- Nothing that is known of the first request waits in vain. -/
structure Unstuck (c : ServerConnection) : Prop where
  /-- A complete response waits for the end of its request. -/
  waits :
    ∀ front ∈ c.requests.head?,
      c.Completed front →
      ¬ c.Done front ∧ c.Waiting front ∧ ¬ c.Silent
  started : ∀ front ∈ c.requests.head?, c.Responded front → c.Started front

/--
A request error ends a request that is fully received and whose response was not
complete before.
-/
def EndsReceived (config : Config) : Label → Prop
  | .tick =>
      match config.stack with
      | .requestError req _ :: _ =>
          config.state.Done req ∧ ¬ config.state.Waiting req
      | _ => True
  | _ => True

instance (config : Config) (label : Label) :
    Decidable (EndsReceived config label) :=
  match label, config with
  | .tick, ⟨_, [], _⟩ =>
      inferInstanceAs (Decidable True)
  | .tick, ⟨c, frame :: _, _⟩ =>
      match frame with
      | .requestError req _ =>
          inferInstanceAs (Decidable (c.Done req ∧ ¬ c.Waiting req))
      | .callback _ | .fire _ | .onRead _ | .routed _ _ _ | .received _ _ _ |
        .requestErrorReturn _ | .readIgnore | .writeNextResponse | .finishRequest |
        .finishReturn | .dropRequests _ _ | .dropNotify _ _ | .upgradeReturn =>
          inferInstanceAs (Decidable True)
  | .input _, _ | .ret, _ | .throw, _ =>
      inferInstanceAs (Decidable True)

/-! ## What stays as it is -/

theorem started_iff
    (c : ServerConnection)
    (req : Nat) :
    c.Started req ↔
      ∃ response, Event.wrote (.head req response) ∈ c.trace := by
  unfold Started written
  apply exists_congr
  intro response
  rw [List.mem_filterMap]
  constructor
  · rintro ⟨event, member, isPiece⟩
    cases event <;> simp [piece?] at isPiece
    rwa [← isPiece]
  · intro member
    exact ⟨_, member, rfl⟩

/-- A head that has been written stays written. -/
theorem Started.grows
    {may : Event → Bool}
    {c next : ServerConnection}
    {req : Nat}
    (started : c.Started req)
    (grows : Grows may c.trace next.trace) :
    next.Started req := by
  rw [started_iff] at started ⊢
  obtain ⟨response, member⟩ := started
  exact ⟨response, grows.mem member⟩

/-- A closed connection stays closed. -/
theorem Closed.grows
    {may : Event → Bool}
    {c next : ServerConnection}
    (closed : c.Closed)
    (grows : Grows may c.trace next.trace) :
    next.Closed := by
  unfold Closed at closed ⊢
  rw [List.any_eq_true] at closed ⊢
  obtain ⟨event, member, ends⟩ := closed
  exact ⟨event, grows.mem member, ends⟩

/-- The stream goes on as it did, and so does the connection. -/
structure Level (c next : ServerConnection) : Prop where
  listener : next.stream.listener = c.stream.listener
  shutdownRequested :
    next.stream.shutdownRequested = c.stream.shutdownRequested
  canRead : next.canRead = c.canRead
  closing : next.closing = c.closing

namespace Level

theorem refl (c : ServerConnection) : Level c c :=
  ⟨rfl, rfl, rfl, rfl⟩

theorem trans
    {first second third : ServerConnection}
    (one : Level first second)
    (two : Level second third) :
    Level first third where
  listener := two.listener.trans one.listener
  shutdownRequested := two.shutdownRequested.trans one.shutdownRequested
  canRead := two.canRead.trans one.canRead
  closing := two.closing.trans one.closing

theorem silent
    {c next : ServerConnection}
    (level : Level c next) :
    next.Silent ↔ c.Silent := by
  simp [Silent, level.canRead]

theorem writeChunks
    (c : ServerConnection)
    (req : Nat)
    (chunks : List Data) :
    Level c (c.writeChunks req chunks) := by
  induction chunks generalizing c with
  | nil =>
      exact refl c
  | cons data rest inductionHypothesis =>
      have wrote : Level c (c.write (.chunk req data)) := ⟨rfl, rfl, rfl, rfl⟩
      exact wrote.trans (inductionHypothesis _)

end Level

/-- What a call that does not close the connection has for the first request. -/
inductive Serves (c next : ServerConnection) : List Frame → Prop where
  | quiet :
      (∀ front ∈ c.requests.head?,
        (next.Responded front ↔ c.Responded front) ∧
          (next.Completed front ↔ c.Completed front)) →
      Serves c next []
  | writes :
      c.requests ≠ [] →
      Serves c next [.writeNextResponse]
  | finishes {front : Nat} :
      c.requests.head? = some front →
      c.Responded front →
      Serves c next [.finishRequest]

theorem Serves.refl (c : ServerConnection) : Serves c c [] :=
  .quiet fun _ _ => ⟨Iff.rfl, Iff.rfl⟩

theorem Serves.of_store
    {c next : ServerConnection}
    (store : next.store = c.store) :
    Serves c next [] :=
  .quiet fun front _ => by simp [Responded, Completed, store]

/-- A response of another request changes nothing for the first one. -/
theorem Serves.other
    {c next : ServerConnection}
    {front req : Nat}
    {rest : List Nat}
    (shape : c.requests = front :: rest)
    (different : front ≠ req)
    (others : ∀ other, other ≠ req → next.store other = c.store other) :
    Serves c next [] := by
  apply Serves.quiet
  intro first isFirst
  have same : front = first := by simpa [shape] using isFirst
  subst first
  simp [Responded, Completed, others front different]

theorem serves_respond
    {c next : ServerConnection}
    {req : Nat}
    {response : ServerResponse}
    {frames : List Frame}
    (executed : c.respond req response = .next next frames) :
    Serves c next frames := by
  obtain ⟨_, _, rfl, front, rest, shape, ⟨rfl, rfl⟩ | ⟨different, rfl⟩⟩ :=
    respond_next executed
  · exact .writes (by simp [shape])
  · refine Serves.other shape different ?_
    intro other notReq
    simp [takeResponse, emit, setResponse, setRequest, notReq]

/-- A call closes the connection, or it leaves the stream alone. -/
theorem serves_accept
    {input : Input}
    {top : Option Frame}
    {c next : ServerConnection}
    {frames : List Frame}
    (notShut : c.stream.shutdownRequested = false)
    (accepted : accept input top c = some (.next next frames))
    (notUpgrade : ∀ req, input ≠ .upgrade req)
    (notRead : ∀ buf, input ≠ .onRead buf)
    (notReadError : ∀ error, input ≠ .onReadError error) :
    next.Closed ∨ Level c next ∧ Serves c next frames := by
  have stays : Level c c ∧ Serves c c [] := ⟨Level.refl c, Serves.refl c⟩
  cases input with
  | respond req response =>
      right
      simp only [accept] at accepted
      split at accepted
      · cases accepted
      · simp only [Option.some.injEq, requestRespond] at accepted
        split at accepted
        · refine ⟨?_, serves_respond accepted⟩
          obtain ⟨_, _, rfl, _⟩ := respond_next accepted
          exact ⟨rfl, rfl, rfl, rfl⟩
        · cases accepted
          exact stays
  | sendContinue req =>
      right
      simp only [accept, Option.some.injEq, requestSendContinue,
        sendContinue] at accepted
      split at accepted
      · split at accepted
        · cases accepted
        · split at accepted
          · cases accepted
            exact stays
          · split at accepted
            · cases accepted
              exact stays
            · split at accepted <;> cases accepted
              exact ⟨⟨rfl, rfl, rfl, rfl⟩, Serves.of_store rfl⟩
      · cases accepted
        exact stays
  | sendChunk req data =>
      right
      rcases responseSend_next (Option.some.inj accepted) with
        ⟨rfl, rfl⟩ | ⟨response, _, _, sent⟩
      · exact stays
      · simp only [sendChunk] at sent
        split at sent
        · cases sent
        · rename_i front rest shape
          split at sent
          · cases sent
            exact ⟨⟨rfl, rfl, rfl, rfl⟩, Serves.of_store rfl⟩
          · split at sent <;> cases sent
            · exact ⟨⟨rfl, rfl, rfl, rfl⟩, Serves.of_store rfl⟩
            · rename_i different
              refine ⟨⟨rfl, rfl, rfl, rfl⟩, Serves.other shape different ?_⟩
              intro other notReq
              simp [emit, setResponse, setRequest, notReq]
  | sendFinalChunk req data =>
      right
      rcases responseSend_next (Option.some.inj accepted) with
        ⟨rfl, rfl⟩ | ⟨response, _, accepts, sent⟩
      · exact stays
      · simp only [sendFinalChunk] at sent
        split at sent
        · cases sent
        · rename_i front rest shape
          have sameDeque : c.requests = front :: rest := shape
          split at sent <;> cases sent
          · rename_i isFront
            refine ⟨⟨rfl, rfl, rfl, rfl⟩, ?_⟩
            exact .finishes (by simp [sameDeque]) (isFront ▸ accepts.2.1)
          · rename_i different
            refine ⟨⟨rfl, rfl, rfl, rfl⟩, Serves.other shape different ?_⟩
            intro other notReq
            simp [emit, setResponse, setRequest, notReq]
  | enablePartial req =>
      cases accepted
      refine Or.inr ⟨⟨rfl, rfl, rfl, rfl⟩, Serves.quiet ?_⟩
      intro front _
      by_cases same : front = req <;>
        simp [Responded, Completed, ServerRequest.responseCompleted, same]
  | gracefulStop =>
      simp only [accept, Option.some.injEq, gracefulStop] at accepted
      split at accepted
      · exact Or.inl (doClose_next accepted).1
      · cases accepted
        exact Or.inr ⟨⟨rfl, rfl, rfl, rfl⟩, Serves.of_store rfl⟩
  | upgrade req =>
      exact (notUpgrade req rfl).elim
  | onRead buf =>
      exact (notRead buf rfl).elim
  | onReadError error =>
      exact (notReadError error rfl).elim
  | onWrite error =>
      cases top <;> simp only [accept] at accepted
      · split at accepted
        · have executed := Option.some.inj accepted
          cases error with
          | some error =>
              exact Or.inl (doClose_next executed).1
          | none =>
              right
              simp only [onWrite, checkIfIdle] at executed
              split at executed
              · split at executed
                · cases executed
                · split at executed <;> cases executed <;>
                    exact ⟨⟨rfl, rfl, rfl, rfl⟩, Serves.of_store rfl⟩
              · cases executed
                exact ⟨⟨rfl, rfl, rfl, rfl⟩, Serves.of_store rfl⟩
        · cases accepted
      · cases accepted
  | onShutdown =>
      cases top <;> simp [accept, notShut] at accepted
  | drop req =>
      simp only [accept, Option.some.injEq, requestDrop] at accepted
      split at accepted
      · cases accepted
        exact Or.inr stays
      · exact Or.inl (doClose_next accepted).1
  | close error | shutdown error =>
      exact Or.inl (doClose_next (Option.some.inj accepted)).1
  | onEof | onConnectionError error =>
      left
      cases top <;> simp only [accept] at accepted
      · split at accepted
        · exact (doClose_next (Option.some.inj accepted)).1
        · cases accepted
      · cases accepted
  | idleTimeout =>
      left
      cases top <;> simp only [accept, onIdleTimeout] at accepted
      · split at accepted
        · split at accepted
          · exact (doClose_next (Option.some.inj accepted)).1
          · cases accepted
        · cases accepted
      · cases accepted

theorem serves_requestErrorReturn
    {c next : ServerConnection}
    {req : Nat}
    {frames : List Frame}
    (executed : c.requestErrorReturn req = .next next frames) :
    Level c next ∧ Serves c next frames := by
  unfold requestErrorReturn at executed
  split at executed
  · refine ⟨?_, serves_respond executed⟩
    obtain ⟨_, _, rfl, _⟩ := respond_next executed
    exact ⟨rfl, rfl, rfl, rfl⟩
  · rename_i response stored
    split at executed
    · cases executed
      refine ⟨⟨rfl, rfl, rfl, rfl⟩, Serves.quiet ?_⟩
      intro front _
      by_cases same : front = req <;>
        simp [Responded, Completed, ServerRequest.responseCompleted, same,
          stored]
    · cases executed
      exact ⟨Level.refl c, Serves.refl c⟩

/-! ## The invariant -/

/-- The request whose end is being reported in this frame. -/
def ends? : Frame → Option Nat
  | .routed req true _ => some req
  | .received req true _ => some req
  | .requestError req _ => some req
  | _ => none

/-- The response to the first request goes on. -/
inductive Served
    (c : ServerConnection)
    (stack : List Frame)
    (front : Nat) : Prop where
  | unanswered :
      ¬ c.Responded front →
      Served c stack front
  | writing :
      stack.head? = some .writeNextResponse →
      Served c stack front
  | unfinished :
      c.Started front →
      ¬ c.Completed front →
      Served c stack front
  | finishing :
      c.Started front →
      stack.head? = some .finishRequest →
      Served c stack front
  | waiting :
      c.Started front →
      c.Waiting front →
      (¬ c.Done front ∨ ∃ frame ∈ stack, ends? frame = some front) →
      Served c stack front

/-- The first request is served, or suspended code will look at it. -/
def FrontServed (c : ServerConnection) (stack : List Frame) : Prop :=
  held stack ≠ [] ∨
    Frame.finishReturn ∈ stack ∨
      ∀ front ∈ c.requests.head?, Served c stack front

/-- Where the loop of `on_read` stands while there is something left in the buffer. -/
inductive Looping
    (c : ServerConnection)
    (stack : List Frame)
    (buf : List Parsed) : Prop where
  | reading :
      stack = [.onRead buf] →
      ¬ c.Silent →
      Looping c stack buf
  /-- `on_read` finishes the only request. -/
  | finishing {req : Nat} :
      stack = [.finishRequest, .onRead buf] →
      (c.Silent → c.closing = true) →
      c.requests = [req] →
      c.Done req →
      Looping c stack buf
  | finished (above : List Frame) :
      stack = above ++ [.finishReturn, .onRead buf] →
      (∀ frame ∈ above, isPlainFrame frame = true) →
      (c.Silent → c.closing = true) →
      c.requests = [] →
      Looping c stack buf

/-- The stream and the stack of a connection that is not closed. -/
structure Flow (c : ServerConnection) (stack : List Frame) : Prop where
  listener : c.stream.listener = true
  notShut : c.stream.shutdownRequested = false
  noClose : ∀ error soft, Frame.dropRequests error (.doClose soft) ∉ stack
  looping :
    ∀ result rest,
      Frame.onRead (result :: rest) ∈ stack →
      Looping c stack (result :: rest)
  /-- A buffer is consumed to its end unless the request is finished. -/
  consumed :
    ∀ req buf,
      Frame.routed req false buf ∈ stack ∨
        Frame.received req false buf ∈ stack →
      buf = []
  full :
    ∀ frame ∈ stack,
      ∀ req ∈ full? frame,
        c.parsing = none ∧ (c.Silent → c.closing = true) ∧
          (req ∈ c.requests → c.requests.getLast? = some req)
  failed :
    ∀ req error,
      Frame.requestError req error ∈ stack →
      c.requests.getLast? = some req ∧
        (stack = [.requestError req error] ∨
          stack = [.requestError req error, .readIgnore])
  ignored :
    Frame.readIgnore ∈ stack →
    c.Silent ∨
      ∃ req error, stack = [.requestError req error, .readIgnore]
  parsing : ∀ req, c.parsing = some req → req ∈ c.requests ∨ c.Silent
  heldStarted : ∀ req ∈ held stack, c.Started req
  unfinished :
    ∀ req ∈ c.requests, ¬ c.Done req → ¬ c.Silent ∨ held stack ≠ []

/-- The invariant of an open connection. -/
structure Open (c : ServerConnection) (stack : List Frame) : Prop where
  deferring : Deferring c stack
  flow : Flow c stack
  front : FrontServed c stack

/-- The frames that say nothing about the stream and the loop. -/
def isFlat : Frame → Bool
  | .callback _ => true
  | .fire _ => true
  | .requestErrorReturn _ => true
  | .writeNextResponse => true
  | .finishRequest => true
  | .finishReturn => true
  | .dropRequests _ (.writeNextResponse _ _) => true
  | .dropNotify _ _ => true
  | .upgradeReturn => true
  | _ => false

/-- The stream goes on, or reading ends because the connection is closing. -/
structure Slows (c next : ServerConnection) : Prop where
  listener : next.stream.listener = c.stream.listener
  shutdownRequested :
    next.stream.shutdownRequested = c.stream.shutdownRequested
  silent : c.Silent → next.Silent
  closing :
    (c.Silent → c.closing = true) → next.Silent → next.closing = true

theorem Level.slows
    {c next : ServerConnection}
    (level : Level c next) :
    Slows c next where
  listener := level.listener
  shutdownRequested := level.shutdownRequested
  silent := level.silent.mpr
  closing wasClosing silent := by
    rw [level.closing]
    exact wasClosing (level.silent.mp silent)

/-- Flat frames take the place of the frames on top, and the deque may change. -/
theorem Flow.move
    {c next : ServerConnection}
    {frames below : List Frame}
    (top : List Frame)
    (flow : Flow c (top ++ below))
    (noError :
      ∀ req error, Frame.requestError req error ∉ top ++ below)
    (flat : ∀ frame ∈ frames, isFlat frame = true)
    (slows : Slows c next)
    (sameParsing : next.parsing = c.parsing)
    (last :
      ∀ req,
        (req ∈ c.requests → c.requests.getLast? = some req) →
        req ∈ next.requests →
        next.requests.getLast? = some req)
    (parsing :
      ∀ req,
        c.parsing = some req →
        req ∈ c.requests ∨ c.Silent →
        req ∈ next.requests ∨ next.Silent)
    (looping :
      ∀ result rest,
        Frame.onRead (result :: rest) ∈ below →
        Looping next (frames ++ below) (result :: rest))
    (heldStarted : ∀ req ∈ held (frames ++ below), next.Started req)
    (unfinished :
      ∀ req ∈ next.requests,
        ¬ next.Done req →
        ¬ next.Silent ∨ held (frames ++ below) ≠ []) :
    Flow next (frames ++ below) := by
  have old :
      ∀ frame ∈ frames ++ below,
        isFlat frame = false → frame ∈ top ++ below := by
    intro frame member notFlat
    rcases List.mem_append.mp member with isNew | isOld
    · simp [flat frame isNew] at notFlat
    · exact List.mem_append_right _ isOld
  refine
    { listener := ?_, notShut := ?_, noClose := ?_, looping := ?_
      consumed := ?_, full := ?_, failed := ?_, ignored := ?_
      parsing := ?_, heldStarted := heldStarted, unfinished := unfinished }
  · rw [slows.listener]
    exact flow.listener
  · rw [slows.shutdownRequested]
    exact flow.notShut
  · intro error soft member
    exact flow.noClose error soft (old _ member rfl)
  · intro result rest member
    refine looping result rest ?_
    rcases List.mem_append.mp member with isNew | isOld
    · have isFlatFrame := flat _ isNew
      cases isFlatFrame
    · exact isOld
  · intro req buf member
    exact flow.consumed req buf
      (member.imp (fun routed => old _ routed rfl)
        (fun received => old _ received rfl))
  · intro frame member req isFull
    have notFlat : isFlat frame = false := by
      cases frame <;> simp [full?] at isFull <;> rfl
    obtain ⟨idle, closing, isLast⟩ :=
      flow.full frame (old frame member notFlat) req isFull
    exact ⟨sameParsing.trans idle, slows.closing closing, last req isLast⟩
  · intro req error member
    exact (noError req error (old _ member rfl)).elim
  · intro member
    rcases flow.ignored (old _ member rfl) with silent | ⟨req, error, shape⟩
    · exact Or.inl (slows.silent silent)
    · exact (noError req error (by simp [shape])).elim
  · intro req isParsing
    rw [sameParsing] at isParsing
    exact parsing req isParsing (flow.parsing req isParsing)

/-- Flat frames take the place of the frames on top. -/
theorem Flow.push
    {may : Event → Bool}
    {c next : ServerConnection}
    {frames below : List Frame}
    (top : List Frame)
    (flow : Flow c (top ++ below))
    (noError :
      ∀ req error, Frame.requestError req error ∉ top ++ below)
    (steady : Steady c next)
    (level : Level c next)
    (grows : Grows may c.trace next.trace)
    (sameHeld : held (frames ++ below) = held (top ++ below))
    (flat : ∀ frame ∈ frames, isFlat frame = true)
    (looping :
      ∀ result rest,
        Frame.onRead (result :: rest) ∈ below →
        Looping next (frames ++ below) (result :: rest)) :
    Flow next (frames ++ below) := by
  refine flow.move top noError flat level.slows steady.parsing ?_ ?_ looping
    ?_ ?_
  · intro req isLast member
    rw [steady.requests] at member ⊢
    exact isLast member
  · intro req _ place
    rw [steady.requests, level.silent]
    exact place
  · intro req isHeld
    rw [sameHeld] at isHeld
    exact (flow.heldStarted req isHeld).grows grows
  · intro req member notDone
    rw [steady.requests] at member
    rw [steady.done] at notDone
    rw [level.silent, sameHeld]
    exact flow.unfinished req member notDone

/-- A request error is reported by the frame on top. -/
theorem Flow.noError
    {c : ServerConnection}
    {frame : Frame}
    {rest : List Frame}
    (flow : Flow c (frame :: rest))
    (notError : ∀ req error, frame ≠ .requestError req error)
    (req : Nat)
    (error : ErrorCode) :
    Frame.requestError req error ∉ frame :: rest := by
  intro member
  rcases (flow.failed req error member).2 with shape | shape
  · cases shape
    exact notError req error rfl
  · cases shape
    exact notError req error rfl

/-- Nothing is left in a buffer below code that is not plain. -/
theorem Flow.noBuffer
    {c : ServerConnection}
    {frame : Frame}
    {rest : List Frame}
    (flow : Flow c (frame :: rest))
    (busy : isPlainFrame frame = false)
    (notFinishing : frame ≠ .finishRequest)
    (notFinished : frame ≠ .finishReturn)
    (result : Parsed)
    (buf : List Parsed) :
    Frame.onRead (result :: buf) ∉ rest := by
  intro member
  cases flow.looping result buf (List.mem_cons_of_mem _ member) with
  | reading shape _ =>
      cases shape
      cases member
  | finishing shape _ _ _ =>
      cases shape
      exact notFinishing rfl
  | finished above shape plain _ _ =>
      cases above with
      | nil =>
          cases shape
          exact notFinished rfl
      | cons first others =>
          cases shape
          simp [plain frame (by simp)] at busy

/-- The first request goes on being served while what it depends on stays the same. -/
theorem Served.shift
    {may : Event → Bool}
    {c next : ServerConnection}
    {stack other : List Frame}
    {front : Nat}
    (served : Served c stack front)
    (idle :
      stack.head? ≠ some .writeNextResponse ∧
        stack.head? ≠ some .finishRequest)
    (responded : next.Responded front ↔ c.Responded front)
    (completed : next.Completed front ↔ c.Completed front)
    (waiting : next.Waiting front ↔ c.Waiting front)
    (done : next.Done front ↔ c.Done front)
    (grows : Grows may c.trace next.trace)
    (ends :
      ∀ frame ∈ stack,
        ends? frame = some front →
        ∃ same ∈ other, ends? same = some front) :
    Served next other front := by
  cases served with
  | unanswered notResponded =>
      exact .unanswered (notResponded ∘ responded.mp)
  | writing isWriting =>
      exact (idle.1 isWriting).elim
  | unfinished started notCompleted =>
      exact .unfinished (started.grows grows) (notCompleted ∘ completed.mp)
  | finishing _ isFinishing =>
      exact (idle.2 isFinishing).elim
  | waiting started isWaiting left =>
      refine .waiting (started.grows grows) (waiting.mpr isWaiting) ?_
      rcases left with notDone | ⟨frame, member, isEnd⟩
      · exact Or.inl (notDone ∘ done.mp)
      · exact Or.inr (ends frame member isEnd)

/-- No code that works on a response is on top. -/
def Idle (stack : List Frame) : Prop :=
  stack.head? ≠ some .writeNextResponse ∧ stack.head? ≠ some .finishRequest

theorem FrontServed.shift
    {may : Event → Bool}
    {c next : ServerConnection}
    {frames below : List Frame}
    (top : List Frame)
    (frontServed : FrontServed c (top ++ below))
    (idle : Idle (top ++ below))
    (sameHeld : held (frames ++ below) = held (top ++ below))
    (notFinished : Frame.finishReturn ∉ top)
    (noEnd : ∀ frame ∈ top, ends? frame = none)
    (steady : Steady c next)
    (grows : Grows may c.trace next.trace)
    (same :
      ∀ front ∈ c.requests.head?,
        (next.Responded front ↔ c.Responded front) ∧
          (next.Completed front ↔ c.Completed front)) :
    FrontServed next (frames ++ below) := by
  rcases frontServed with isHeld | isFinished | served
  · left
    rwa [sameHeld]
  · right
    left
    exact List.mem_append_right _
      ((List.mem_append.mp isFinished).resolve_left notFinished)
  · right
    right
    intro front isFront
    rw [steady.requests] at isFront
    obtain ⟨responded, completed⟩ := same front isFront
    refine (served front isFront).shift idle responded completed
      (steady.waiting front) (steady.done front) grows ?_
    intro frame member isEnd
    refine ⟨frame, ?_, isEnd⟩
    refine List.mem_append_right _ ((List.mem_append.mp member).resolve_left ?_)
    intro isTop
    simp [noEnd frame isTop] at isEnd

/-- A call serves the first request. -/
theorem FrontServed.serves
    {may : Event → Bool}
    {c next : ServerConnection}
    {frames below : List Frame}
    (top : List Frame)
    (frontServed : FrontServed c (top ++ below))
    (idle : Idle (top ++ below))
    (noneHeld : held top = [])
    (notFinished : Frame.finishReturn ∉ top)
    (noEnd : ∀ frame ∈ top, ends? frame = none)
    (steady : Steady c next)
    (grows : Grows may c.trace next.trace)
    (serves : Serves c next frames) :
    FrontServed next (frames ++ below) := by
  have heldTop : held (top ++ below) = held below := by
    simpa [held] using noneHeld
  cases serves with
  | quiet same =>
      exact frontServed.shift top idle (by simp [heldTop]) notFinished noEnd
        steady grows same
  | writes _ =>
      exact Or.inr (Or.inr fun front _ => .writing rfl)
  | @finishes front isFront responded =>
      rcases frontServed with isHeld | isFinished | served
      · left
        rw [heldTop] at isHeld
        exact isHeld
      · right
        left
        exact List.mem_append_right _
          ((List.mem_append.mp isFinished).resolve_left notFinished)
      · right
        right
        intro other isOther
        rw [steady.requests, isFront] at isOther
        cases isOther
        have started : c.Started front := by
          cases served front isFront with
          | unanswered notResponded =>
              exact (notResponded responded).elim
          | writing isWriting =>
              exact (idle.1 isWriting).elim
          | unfinished started _ | finishing started _ | waiting started _ _ =>
              exact started
        exact .finishing (started.grows grows) rfl

/-! ## Every step of an open connection -/

/-- Code that leaves the deque and the stream alone. -/
theorem Open.flat
    {c next : ServerConnection}
    {frame : Frame}
    {rest frames : List Frame}
    (isOpen : Open c (frame :: rest))
    (deferring : Deferring next (frames ++ rest))
    (topFlat : isFlat frame = true)
    (topIdle : Idle (frame :: rest))
    (notFinished : frame ≠ .finishReturn)
    (steady : Steady c next)
    (level : Level c next)
    (grows : Grows (emits frame) c.trace next.trace)
    (sameHeld : held (frames ++ rest) = held ([frame] ++ rest))
    (flat : ∀ other ∈ frames, isFlat other = true)
    (plain :
      isPlainFrame frame = true →
      ∀ other ∈ frames, isPlainFrame other = true)
    (same :
      ∀ front ∈ c.requests.head?,
        (next.Responded front ↔ c.Responded front) ∧
          (next.Completed front ↔ c.Completed front)) :
    Open next (frames ++ rest) := by
  refine ⟨deferring, ?_, ?_⟩
  · refine isOpen.flow.push [frame] (isOpen.flow.noError ?_) steady level grows
      sameHeld flat ?_
    · rintro req error rfl
      cases topFlat
    · intro result buf member
      cases isOpen.flow.looping result buf
        (List.mem_cons_of_mem _ member) with
      | reading shape _ =>
          cases shape
          cases member
      | finishing shape _ _ _ =>
          cases shape
          exact (topIdle.2 rfl).elim
      | finished above shape abovePlain closing empty =>
          cases above with
          | nil =>
              cases shape
              exact (notFinished rfl).elim
          | cons first others =>
              cases shape
              have isPlain := plain (abovePlain frame (by simp))
              refine .finished (frames ++ others) (by simp) ?_ ?_ ?_
              · intro other inAbove
                rcases List.mem_append.mp inAbove with isNew | isOld
                · exact isPlain other isNew
                · exact abovePlain other (List.mem_cons_of_mem _ isOld)
              · rw [level.silent, level.closing]
                exact closing
              · rw [steady.requests]
                exact empty
  · refine isOpen.front.shift [frame] topIdle sameHeld
      (by simpa using notFinished.symm) ?_ steady grows same
    intro other member
    simp only [List.mem_singleton] at member
    subst other
    cases frame <;> simp_all [isFlat, ends?]

/-- A request of the deque is the last one also when the first one has left. -/
theorem last_of_tail
    {c : ServerConnection}
    {front req : Nat}
    {rest : List Nat}
    (shape : c.requests = front :: rest)
    (isLast : req ∈ c.requests → c.requests.getLast? = some req)
    (member : req ∈ rest) :
    rest.getLast? = some req := by
  have last := isLast (by simp [shape, member])
  cases rest with
  | nil =>
      cases member
  | cons second others =>
      simpa [shape] using last

/-- When a finished request has left the deque, the parser still has its own in it. -/
theorem Receiving.place_of_tail
    {c : ServerConnection}
    {stack : List Frame}
    {front req : Nat}
    {rest : List Nat}
    (receiving : Receiving c stack)
    (shape : c.requests = front :: rest)
    (done : c.Done front)
    (isParsing : c.parsing = some req)
    (place : req ∈ c.requests ∨ c.Silent) :
    req ∈ rest ∨ c.Silent := by
  rcases place with member | silent
  · rw [shape] at member
    rcases List.mem_cons.mp member with rfl | inRest
    · exact Or.inr (receiving.parsingDone req isParsing done)
    · exact Or.inl inRest
  · exact Or.inr silent

/-- A request that is given to the first place and looked at is being served. -/
theorem Served.started
    {c : ServerConnection}
    {stack : List Frame}
    {front : Nat}
    (served : Served c stack front)
    (notWriting : stack.head? ≠ some .writeNextResponse)
    (responded : c.Responded front) :
    c.Started front := by
  cases served with
  | unanswered notResponded =>
      exact (notResponded responded).elim
  | writing isWriting =>
      exact (notWriting isWriting).elim
  | unfinished started _ | finishing started _ | waiting started _ _ =>
      exact started

theorem Open.finishRequest
    {c next : ServerConnection}
    {rest frames : List Frame}
    (receiving : Receiving c (.finishRequest :: rest))
    (isOpen : Open c (.finishRequest :: rest))
    (deferring : Deferring next (frames ++ rest))
    (executed : c.finishRequest = .next next frames) :
    Open next (frames ++ rest) := by
  have flow := isOpen.flow
  have noError := flow.noError (by simp)
  have grows : Grows (emits .finishRequest) c.trace next.trace :=
    code_emits executed
  obtain ⟨front, others, shape, completed,
    ⟨notDone, rfl, rfl⟩ | ⟨done, rfl, rfl⟩⟩ := finishRequest_next executed
  · have kept :
        Kept c
          (c.setRequest front
            { c.store front with finishOnReceive := true }) :=
      Kept.setRequest c front _ rfl rfl
    refine ⟨deferring, ?_, ?_⟩
    · refine flow.move [_] noError (by simp) ⟨rfl, rfl, id, id⟩ rfl
        (fun _ isLast => isLast) (fun _ _ place => place) ?_ ?_ ?_
      · -- the only request is fully received when something is left
        intro result buf member
        cases flow.looping result buf (List.mem_cons_of_mem _ member) with
        | reading shape _ =>
            cases shape
        | finishing _ _ only done =>
            rw [shape] at only
            cases only
            exact (notDone done).elim
        | finished above _ plain _ empty =>
            simp [shape] at empty
      · intro req isHeld
        exact (flow.heldStarted req isHeld).grows grows
      · intro req member unfinished
        rw [kept.done] at unfinished
        exact flow.unfinished req member unfinished
    · rcases isOpen.front with isHeld | isFinished | served
      · exact Or.inl isHeld
      · exact Or.inr (Or.inl (by simpa using isFinished))
      · refine Or.inr (Or.inr ?_)
        intro req isFront
        have same : front = req := by simpa [setRequest, shape] using isFront
        subst req
        have started :=
          (served front (by simp [shape])).started (by simp)
            completed.responded
        refine .waiting (started.grows grows) (by simp [Waiting]) (Or.inl ?_)
        rw [kept.done]
        exact notDone
  · have sameDone :
        ∀ req, (c.cleanupRequest front others).Done req ↔ c.Done req := by
      intro req
      by_cases same : req = front <;>
        simp [Done, cleanupRequest, emit, setRequest, same]
    refine ⟨deferring, ?_, Or.inr (Or.inl (by simp))⟩
    refine flow.move [_] noError (by simp [isFlat]) ⟨rfl, rfl, id, id⟩ rfl ?_
      ?_ ?_ ?_ ?_
    · intro req isLast member
      exact last_of_tail shape isLast member
    · intro req isParsing place
      exact receiving.place_of_tail shape done isParsing place
    · intro result buf member
      cases flow.looping result buf (List.mem_cons_of_mem _ member) with
      | reading shape _ =>
          cases shape
      | finishing stacked closing only _ =>
          cases stacked
          rw [shape] at only
          cases only
          exact .finished [_] rfl (by simp [isPlainFrame]) closing rfl
      | finished _ _ _ _ empty =>
          simp [shape] at empty
    · intro req isHeld
      have wasHeld : req ∈ held ([.finishRequest] ++ rest) := by
        simpa [held, held?] using isHeld
      exact (flow.heldStarted req wasHeld).grows grows
    · intro req member unfinished
      rw [sameDone] at unfinished
      have wasUnfinished :=
        flow.unfinished req (by rw [shape]; exact List.mem_cons_of_mem _ member)
          unfinished
      exact wasUnfinished

/-- The head of the first response is written. -/
theorem started_writeHead
    (c : ServerConnection)
    (req : Nat)
    (response : ServerResponse) :
    (c.writeHead req response).Started req :=
  (started_write _ _ _).mpr (Or.inr ⟨response, rfl⟩)

theorem slows_startClosing
    (c : ServerConnection)
    (req : Nat) :
    Slows c (c.startClosing req) ∧ (c.startClosing req).closing = true ∧
      ((c.startClosing req).Silent → c.Silent ∨ c.Done req) := by
  simp only [startClosing]
  split
  · rename_i done
    refine ⟨⟨rfl, rfl, ?_, fun _ _ => rfl⟩, rfl, fun _ => Or.inr done⟩
    intro _
    simp [Silent, canRead, ServerConnection.readIgnore]
  · exact ⟨⟨rfl, rfl, id, fun _ _ => rfl⟩, rfl, fun silent => Or.inl silent⟩

theorem Slows.trans
    {first second third : ServerConnection}
    (one : Slows first second)
    (two : Slows second third) :
    Slows first third where
  listener := two.listener.trans one.listener
  shutdownRequested := two.shutdownRequested.trans one.shutdownRequested
  silent silent := two.silent (one.silent silent)
  closing wasClosing := two.closing (one.closing wasClosing)

/-- What has been written when the first response is no longer waited for. -/
structure Headed
    (c middle : ServerConnection)
    (front : Nat) : Prop where
  steady : Steady c middle
  slows : Slows c middle
  started : middle.Started front
  completed : middle.Completed front ↔ c.Completed front
  /-- Reading ends only when the first request is fully received. -/
  silent : middle.Silent → c.Silent ∨ c.Done front

theorem headed_writeHead
    (c : ServerConnection)
    {req : Nat}
    {given : ServerResponse}
    (stored : (c.store req).response = some given) :
    Headed c (c.writeHead req (c.prepared given).withoutTmpChunks) req where
  steady := Steady.writeHead c req stored (completed_prepared c given)
  slows := ⟨rfl, rfl, id, id⟩
  started := started_writeHead c req _
  completed := by
    unfold Completed
    rw [completed_writeHead, completed_prepared]
    simp [ServerRequest.responseCompleted, stored]
  silent := Or.inl

/-- `startClosing` may observe anything. -/
theorem anything_startClosing
    (c : ServerConnection)
    (req : Nat) :
    Grows (fun _ => true) c.trace (c.startClosing req).trace :=
  startClosing_grows rfl c req

theorem anything_writeChunks
    (c : ServerConnection)
    (req : Nat)
    (chunks : List Data) :
    Grows (fun _ => true) c.trace (c.writeChunks req chunks).trace :=
  writeChunks_grows c req (fun _ => rfl) chunks

theorem Headed.startClosing
    {c middle : ServerConnection}
    {front : Nat}
    (headed : Headed c middle front) :
    Headed c (middle.startClosing front) front := by
  obtain ⟨slows, _, silent⟩ := slows_startClosing middle front
  refine
    { steady := headed.steady.trans (Steady.startClosing middle front)
      slows := headed.slows.trans slows
      started :=
        headed.started.grows (anything_startClosing middle front)
      completed := by
        rw [← headed.completed]
        simp [Completed, store_startClosing]
      silent := ?_ }
  intro isSilent
  rcases silent isSilent with wasSilent | done
  · exact headed.silent wasSilent
  · exact Or.inr ((headed.steady.done front).mp done)

theorem Headed.writeChunks
    {c middle : ServerConnection}
    {front : Nat}
    (headed : Headed c middle front)
    (chunks : List Data) :
    Headed c (middle.writeChunks front chunks) front := by
  have level := Level.writeChunks middle front chunks
  refine
    { steady := headed.steady.trans (Steady.writeChunks middle front chunks)
      slows := headed.slows.trans level.slows
      started :=
        headed.started.grows (anything_writeChunks middle front chunks)
      completed := by
        rw [← headed.completed]
        simp [Completed, store_writeChunks]
      silent := ?_ }
  intro isSilent
  exact headed.silent (level.silent.mp isSilent)

theorem headed_writesHead
    {c middle : ServerConnection}
    {req : Nat}
    {rest : List Nat}
    {given : ServerResponse}
    (stored : (c.store req).response = some given)
    (writesHead :
      WritesHead c req rest (c.prepared given).withoutTmpChunks middle) :
    Headed c middle req := by
  cases writesHead with
  | keepAlive _ _ =>
      exact headed_writeHead c stored
  | closing _ =>
      exact (headed_writeHead c stored).startClosing

/-- The unfinished request is the last one, so a finished first request is before it. -/
theorem Open.written
    {c next : ServerConnection}
    {front : Nat}
    {rest : List Nat}
    {below : List Frame}
    (frames : List Frame)
    (isOpen : Open c (.writeNextResponse :: below))
    (deferring : Deferring next (frames ++ below))
    (shape : c.requests = front :: rest)
    (headed : Headed c next front)
    (grows : Grows (emits .writeNextResponse) c.trace next.trace)
    (alone : c.Silent ∨ ¬ next.Silent ∨ rest = [])
    (flat : ∀ frame ∈ frames, isFlat frame = true)
    (sameHeld : held (frames ++ below) = held below)
    (served : Served next (frames ++ below) front) :
    Open next (frames ++ below) := by
  have flow := isOpen.flow
  have heldBelow : held (.writeNextResponse :: below) = held below := rfl
  refine ⟨deferring, ?_, Or.inr (Or.inr ?_)⟩
  · refine flow.move [_] (flow.noError (by simp)) flat headed.slows
      headed.steady.parsing ?_ ?_ ?_ ?_ ?_
    · intro req isLast member
      rw [headed.steady.requests] at member ⊢
      exact isLast member
    · intro req _ place
      rw [headed.steady.requests]
      exact place.imp_right headed.slows.silent
    · intro result buf member
      exact (flow.noBuffer rfl (by simp) (by simp) result buf member).elim
    · intro req isHeld
      rw [sameHeld] at isHeld
      exact (flow.heldStarted req isHeld).grows grows
    · intro req member unfinished
      rw [headed.steady.requests] at member
      rw [headed.steady.done] at unfinished
      rw [sameHeld]
      rcases flow.unfinished req member unfinished with reads | isHeld
      · left
        intro silent
        rcases alone with wasSilent | stillReads | empty
        · exact reads wasSilent
        · exact stillReads silent
        · subst rest
          have isFront : req = front := by simpa [shape] using member
          subst req
          exact (headed.silent silent).elim reads unfinished
      · exact Or.inr isHeld
  · intro other isFront
    rw [headed.steady.requests, shape] at isFront
    cases isFront
    exact served

theorem Open.writeNextResponse
    {c next : ServerConnection}
    {below frames : List Frame}
    (receiving : Receiving c (.writeNextResponse :: below))
    (isOpen : Open c (.writeNextResponse :: below))
    (deferring : Deferring next (frames ++ below))
    (executed : c.writeNextResponse = .next next frames) :
    Open next (frames ++ below) := by
  have flow := isOpen.flow
  have grows := writeNextResponse_grows executed
  obtain ⟨front, rest, given, shape, stored, outcome⟩ :=
    writeNextResponse_next executed
  have alone :
      ∀ middle,
        WritesHead c front rest (c.prepared given).withoutTmpChunks middle →
        c.Silent ∨ ¬ middle.Silent ∨ rest = [] := by
    intro middle writesHead
    cases writesHead with
    | keepAlive _ _ =>
        by_cases silent : c.Silent
        · exact Or.inl silent
        · exact Or.inr (Or.inl silent)
    | closing empty =>
        exact Or.inr (Or.inr empty)
  cases outcome with
  | finish writesHead _ =>
      have headed := headed_writesHead stored writesHead
      exact isOpen.written _ deferring shape headed grows (alone _ writesHead)
        (by simp [isFlat]) rfl (.finishing headed.started rfl)
  | @flush middle writesHead unfinished =>
      have headed := headed_writesHead stored writesHead
      have flushed := headed.writeChunks (c.prepared given).tmpChunks
      have level :=
        Level.writeChunks middle front (c.prepared given).tmpChunks
      refine isOpen.written _ deferring shape flushed grows ?_ (by simp) rfl ?_
      · rw [level.silent]
        exact alone _ writesHead
      · refine .unfinished flushed.started ?_
        rw [flushed.completed]
        simp [Completed, ServerRequest.responseCompleted, stored, unfinished]
  | hold nonempty _ =>
      have headed := (headed_writeHead c stored).startClosing
      have done := receiving.followed shape nonempty
      have slows :
          Slows c
            { (c.writeHead front
                (c.prepared given).withoutTmpChunks).startClosing front with
              requests := rest } :=
        ⟨headed.slows.listener, headed.slows.shutdownRequested,
          headed.slows.silent, headed.slows.closing⟩
      refine ⟨deferring, ?_, Or.inl (by simp [held, held?])⟩
      refine flow.move [_] (flow.noError (by simp)) (by simp [isFlat])
        slows headed.steady.parsing ?_ ?_ ?_ ?_ ?_
      · intro req isLast member
        exact last_of_tail shape isLast member
      · intro req isParsing place
        exact (receiving.place_of_tail shape done isParsing place).imp_right
          headed.slows.silent
      · intro result buf member
        exact (flow.noBuffer rfl (by simp) (by simp) result buf member).elim
      · intro req isHeld
        have cases : req = front ∨ req ∈ held below := by
          simpa [held, held?] using isHeld
        rcases cases with rfl | wasHeld
        · exact headed.started
        · exact (flow.heldStarted req wasHeld).grows grows
      · intro req _ _
        exact Or.inr (by simp [held, held?])

/-- Below a suspended `finish_request` only the last request was being read. -/
theorem Flow.afterFinish
    {c : ServerConnection}
    {rest : List Frame}
    (flow : Flow c (.finishReturn :: rest))
    {result : Parsed}
    {buf : List Parsed}
    (member : Frame.onRead (result :: buf) ∈ rest) :
    rest = [.onRead (result :: buf)] ∧ c.requests = [] ∧
      (c.Silent → c.closing = true) := by
  cases flow.looping result buf (List.mem_cons_of_mem _ member) with
  | reading shape _ =>
      cases shape
  | finishing shape _ _ _ =>
      cases shape
  | finished above shape plain closing empty =>
      cases above with
      | nil =>
          cases shape
          exact ⟨rfl, empty, closing⟩
      | cons first others =>
          cases shape
          have isPlain := plain .finishReturn (by simp)
          cases isPlain

theorem level_finishReturn
    {c next : ServerConnection}
    {frames : List Frame}
    (executed : c.finishReturn = .next next frames) :
    next.Closed ∨
      c.closing = false ∧ Level c next ∧ next.store = c.store ∧
        (frames = [] ∧ (∀ front ∈ c.requests.head?, ¬ c.Responded front) ∨
          frames = [.writeNextResponse] ∧ c.requests ≠ []) := by
  rcases finishReturn_next executed with
    ⟨_, closed⟩ | ⟨closing, stopping, ⟨plain, _, rfl, unanswered⟩ |
      ⟨rfl, rfl, req, rest, shape, _⟩⟩
  · exact Or.inl (doClose_next closed).1
  · refine Or.inr ⟨closing, ?_, plain.store, Or.inl ⟨rfl, unanswered⟩⟩
    simp only [finishReturn, closing, stopping, Bool.or_self,
      Bool.false_eq_true, ↓reduceIte] at executed
    split at executed
    · rename_i empty
      simp only [checkIfIdle, empty, ↓reduceIte] at executed
      split at executed
      · cases executed
      · split at executed <;> cases executed <;> exact ⟨rfl, rfl, rfl, rfl⟩
    · split at executed <;> cases executed
      exact Level.refl c
  · exact Or.inr ⟨closing, Level.refl next, rfl,
      Or.inr ⟨rfl, by simp [shape]⟩⟩

/-- `finish_request` looks at the first request when the callback has returned. -/
theorem Open.finishReturn
    {c next : ServerConnection}
    {rest frames : List Frame}
    (isOpen : Open c (.finishReturn :: rest))
    (deferring : Deferring next (frames ++ rest))
    (executed : c.finishReturn = .next next frames) :
    next.Closed ∨ Open next (frames ++ rest) := by
  have flow := isOpen.flow
  have grows : Grows (emits .finishReturn) c.trace next.trace :=
    code_emits executed
  have steady := steady_finishReturn executed
  rcases level_finishReturn executed with
    closed | ⟨going, level, store, looked⟩
  · exact Or.inl closed
  right
  have sameHeld : held (frames ++ rest) = held ([.finishReturn] ++ rest) := by
    rcases looked with ⟨rfl, _⟩ | ⟨rfl, _⟩ <;> rfl
  refine ⟨deferring, ?_, Or.inr (Or.inr ?_)⟩
  · refine flow.push [_] (flow.noError (by simp)) steady level grows sameHeld
      ?_ ?_
    · rcases looked with ⟨rfl, _⟩ | ⟨rfl, _⟩ <;> simp [isFlat]
    · intro result buf member
      obtain ⟨rfl, empty, closing⟩ := flow.afterFinish member
      rcases looked with ⟨rfl, _⟩ | ⟨_, nonempty⟩
      · refine .reading rfl ?_
        intro silent
        have isClosing := closing (level.silent.mp silent)
        simp [going] at isClosing
      · exact (nonempty empty).elim
  · intro front isFront
    rw [steady.requests] at isFront
    rcases looked with ⟨_, unanswered⟩ | ⟨rfl, _⟩
    · refine .unanswered ?_
      simpa [Responded, store] using unanswered front isFront
    · exact .writing rfl

theorem Open.dropRequests
    {c next : ServerConnection}
    {error : Option ErrorCode}
    {returns : DropReturn}
    {rest frames : List Frame}
    (receiving : Receiving c (.dropRequests error returns :: rest))
    (isOpen : Open c (.dropRequests error returns :: rest))
    (deferring : Deferring next (frames ++ rest))
    (executed : c.dropRequests error returns = .next next frames) :
    Open next (frames ++ rest) := by
  have flow := isOpen.flow
  have grows : Grows (emits (.dropRequests error returns)) c.trace next.trace :=
    code_emits executed
  cases returns with
  | doClose soft =>
      exact (flow.noClose error soft (by simp)).elim
  | writeNextResponse front tmpChunks =>
      have isHeld :
          front ∈ held (.dropRequests error
            (.writeNextResponse front tmpChunks) :: rest) := by
        simp [held, held?]
      obtain ⟨_, _, done, silent⟩ := receiving.heldApart front isHeld
      cases shape : c.requests with
      | cons req others =>
          simp only [ServerConnection.dropRequests, shape] at executed
          cases executed
          refine ⟨deferring, ?_, Or.inl (by simp [held, held?])⟩
          refine flow.move [_] (flow.noError (by simp)) (by simp [isFlat])
            ⟨rfl, rfl, id, id⟩ rfl ?_ ?_ ?_ ?_ ?_
          · intro other isLast member
            exact last_of_tail shape isLast member
          · intro other _ _
            exact Or.inr silent
          · intro result buf member
            exact (flow.noBuffer rfl (by simp) (by simp) result buf member).elim
          · intro other wasHeld
            exact (flow.heldStarted other wasHeld).grows grows
          · intro other _ _
            exact Or.inr (by simp [held, held?])
      | nil =>
          simp only [ServerConnection.dropRequests, shape] at executed
          have started : c.Started front := flow.heldStarted front isHeld
          have restored :
              ∀ frames next,
                frames = [] ∨ frames = [.finishRequest] →
                Deferring next (frames ++ rest) →
                Steady { c with requests := [front] } next →
                Level { c with requests := [front] } next →
                Grows (emits (.dropRequests error
                  (.writeNextResponse front tmpChunks))) c.trace next.trace →
                Served next (frames ++ rest) front →
                Open next (frames ++ rest) := by
            intro frames next few deferring steady level grows served
            have sameHeld : held (frames ++ rest) = held rest := by
              rcases few with rfl | rfl <;> rfl
            refine ⟨deferring, ?_, Or.inr (Or.inr ?_)⟩
            · refine flow.move [_] (flow.noError (by simp)) ?_ ?_ steady.parsing
                ?_ ?_ ?_ ?_ ?_
              · rcases few with rfl | rfl <;> simp [isFlat]
              · exact
                  ⟨level.listener, level.shutdownRequested, level.silent.mpr,
                    level.slows.closing⟩
              · intro other _ member
                rw [steady.requests] at member ⊢
                simp at member ⊢
                exact member.symm
              · intro other _ _
                exact Or.inr (level.silent.mpr silent)
              · intro result buf member
                exact
                  (flow.noBuffer rfl (by simp) (by simp) result buf member).elim
              · intro other wasHeld
                rw [sameHeld] at wasHeld
                have inOld :
                    other ∈ held (.dropRequests error
                      (.writeNextResponse front tmpChunks) :: rest) :=
                  List.mem_cons_of_mem _ wasHeld
                exact (flow.heldStarted other inOld).grows grows
              · intro other member notDone
                rw [steady.requests] at member
                rw [steady.done] at notDone
                have same : other = front := by simpa using member
                subst other
                exact (notDone done).elim
            · intro other isFront
              rw [steady.requests] at isFront
              cases isFront
              exact served
          unfold flushResponse at executed
          split at executed
          · cases executed
            exact restored _ _ (Or.inr rfl) deferring (Steady.refl _)
              (Level.refl _) grows (.finishing started rfl)
          · rename_i notCompleted
            cases executed
            refine restored _ _ (Or.inl rfl) deferring
              (Steady.writeChunks _ front tmpChunks)
              (Level.writeChunks _ front tmpChunks) grows
              (.unfinished (started.grows grows) ?_)
            simpa [Completed, store_writeChunks] using notCompleted

/-- A request error of a fully received request that nothing waits for. -/
theorem Open.requestError
    {c : ServerConnection}
    {req : Nat}
    {error : ErrorCode}
    {rest : List Frame}
    (callback : Callback)
    (receiving : Receiving c (.requestError req error :: rest))
    (isOpen : Open c (.requestError req error :: rest))
    (deferring :
      Deferring c.readIgnore
        ([.fire callback, .requestErrorReturn req] ++ rest))
    (done : c.Done req)
    (notWaiting : ¬ c.Waiting req) :
    Open c.readIgnore ([.fire callback, .requestErrorReturn req] ++ rest) := by
  have flow := isOpen.flow
  have silent : c.readIgnore.Silent := by
    simp [Silent, canRead, ServerConnection.readIgnore]
  have grows : Grows (fun _ => true) c.trace c.readIgnore.trace :=
    Grows.snoc c.trace rfl
  obtain ⟨isLast, shape⟩ := flow.failed req error (by simp)
  have below : rest = [] ∨ rest = [.readIgnore] := by
    rcases shape with shape | shape <;> cases shape
    · exact Or.inl rfl
    · exact Or.inr rfl
  -- only the last request can be unfinished
  have allDone : ∀ other ∈ c.requests, c.Done other := by
    intro other member
    by_contra notDone
    have last := (receiving.unfinished other member notDone).2
    rw [isLast] at last
    cases last
    exact notDone done
  refine ⟨deferring, ?_, ?_⟩
  · refine
      { listener := flow.listener, notShut := flow.notShut, noClose := ?_
        looping := ?_, consumed := ?_, full := ?_, failed := ?_
        ignored := fun _ => Or.inl silent
        parsing := fun _ _ => Or.inr silent, heldStarted := ?_
        unfinished := ?_ }
    · rcases below with rfl | rfl <;> simp
    · rcases below with rfl | rfl <;> simp
    · rcases below with rfl | rfl <;> simp
    · rcases below with rfl | rfl <;> simp [full?]
    · rcases below with rfl | rfl <;> simp
    · rcases below with rfl | rfl <;> simp [held, held?]
    · intro other member notDone
      exact (notDone (allDone other member)).elim
  · rcases isOpen.front with isHeld | isFinished | served
    · rcases below with rfl | rfl <;> simp [held, held?] at isHeld
    · rcases below with rfl | rfl <;> simp at isFinished
    · refine Or.inr (Or.inr ?_)
      intro front isFront
      have member : front ∈ c.requests := List.mem_of_mem_head? isFront
      cases served front isFront with
      | unanswered notResponded =>
          exact .unanswered notResponded
      | writing isWriting =>
          cases isWriting
      | unfinished started notCompleted =>
          exact .unfinished (started.grows grows) notCompleted
      | finishing _ isFinishing =>
          cases isFinishing
      | waiting started isWaiting left =>
          rcases left with notDone | ⟨frame, inStack, isEnd⟩
          · exact (notDone (allDone front member)).elim
          · rcases below with rfl | rfl
            · simp only [List.mem_singleton] at inStack
              subst frame
              cases isEnd
              exact (notWaiting isWaiting).elim
            · simp only [List.mem_cons, List.not_mem_nil, or_false] at inStack
              rcases inStack with rfl | rfl
              · cases isEnd
                exact (notWaiting isWaiting).elim
              · cases isEnd

/-- Reading is ended below `request_error`, which has ended it already. -/
theorem Open.readIgnore
    {c : ServerConnection}
    {rest : List Frame}
    (isOpen : Open c (.readIgnore :: rest))
    (deferring : Deferring c.readIgnore rest) :
    Open c.readIgnore ([] ++ rest) := by
  have flow := isOpen.flow
  have wasSilent : c.Silent := by
    rcases flow.ignored (by simp) with silent | ⟨req, error, shape⟩
    · exact silent
    · cases shape
  have silent : c.readIgnore.Silent := by
    simp [Silent, canRead, ServerConnection.readIgnore]
  have grows : Grows (fun _ => true) c.trace c.readIgnore.trace :=
    Grows.snoc c.trace rfl
  refine ⟨deferring, ?_, ?_⟩
  · refine flow.move [_] (flow.noError (by simp)) (by simp)
      ⟨rfl, rfl, fun _ => silent, fun wasClosing _ => wasClosing wasSilent⟩ rfl
      (fun _ isLast => isLast) (fun _ _ _ => Or.inr silent) ?_ ?_ ?_
    · intro result buf member
      exact (flow.noBuffer rfl (by simp) (by simp) result buf member).elim
    · intro req isHeld
      exact (flow.heldStarted req isHeld).grows grows
    · intro req member notDone
      exact (flow.unfinished req member notDone).imp
        (fun reads => (reads wasSilent).elim) id
  · exact isOpen.front.shift [_] (by simp [Idle]) rfl (by simp) (by simp [ends?])
      (Steady.readIgnore c) grows (fun _ _ => ⟨Iff.rfl, Iff.rfl⟩)

/-- The loop body of `on_read` goes on to the receiving callbacks. -/
theorem Open.routed
    {c : ServerConnection}
    {req : Nat}
    {done : Bool}
    {buf : List Parsed}
    (fired : List Frame)
    (isOpen : Open c [.routed req done buf])
    (deferring : Deferring c (fired ++ [.received req done buf]))
    (fires : ∀ frame ∈ fired, ∃ callback, frame = .fire callback) :
    Open c (fired ++ [.received req done buf]) := by
  have flow := isOpen.flow
  have onlyReceived :
      ∀ frame ∈ fired ++ [.received req done buf],
        (∀ callback, frame ≠ .fire callback) →
        frame = .received req done buf := by
    intro frame member notFire
    rcases List.mem_append.mp member with isFired | isLast
    · obtain ⟨callback, isFire⟩ := fires frame isFired
      exact (notFire callback isFire).elim
    · simpa using isLast
  have noneHeld : held (fired ++ [.received req done buf]) = [] := by
    unfold held
    rw [List.filterMap_eq_nil_iff]
    intro frame member
    rcases List.mem_append.mp member with isFired | isLast
    · obtain ⟨callback, rfl⟩ := fires frame isFired
      rfl
    · simp only [List.mem_singleton] at isLast
      subst frame
      rfl
  have sameFull :
      full? (.received req done buf) = full? (.routed req done buf) := by
    cases done <;> rfl
  have sameEnds :
      ends? (.received req done buf) = ends? (.routed req done buf) := by
    cases done <;> rfl
  refine ⟨deferring, ?_, ?_⟩
  · refine
      { listener := flow.listener, notShut := flow.notShut, noClose := ?_
        looping := ?_, consumed := ?_, full := ?_, failed := ?_
        ignored := ?_, parsing := flow.parsing, heldStarted := ?_
        unfinished := ?_ }
    · intro error soft member
      cases onlyReceived _ member (by simp)
    · intro result rest member
      cases onlyReceived _ member (by simp)
    · rintro other left (member | member)
      · cases onlyReceived _ member (by simp)
      · cases onlyReceived _ member (by simp)
        exact flow.consumed req buf (Or.inl (by simp))
    · intro frame member other isFull
      have same : frame = .received req done buf := by
        refine onlyReceived frame member ?_
        rintro callback rfl
        cases isFull
      subst frame
      rw [sameFull] at isFull
      exact flow.full _ (by simp) other isFull
    · intro other error member
      cases onlyReceived _ member (by simp)
    · intro member
      cases onlyReceived _ member (by simp)
    · simp [noneHeld]
    · intro other member notDone
      left
      exact (flow.unfinished other member notDone).resolve_right
        (by simp [held, held?])
  · refine Or.inr (Or.inr ?_)
    rcases isOpen.front with isHeld | isFinished | served
    · simp [held, held?] at isHeld
    · simp at isFinished
    · intro front isFront
      have same : Grows (fun _ => true) c.trace c.trace := Grows.refl c.trace
      refine (served front isFront).shift (by simp) Iff.rfl Iff.rfl Iff.rfl
        Iff.rfl same ?_
      intro frame member isEnd
      simp only [List.mem_singleton] at member
      subst frame
      exact ⟨.received req done buf, by simp, sameEnds.trans isEnd⟩

/-- A request that no frame reports the end of. -/
theorem Served.shift_received
    {c next : ServerConnection}
    {req front : Nat}
    {buf : List Parsed}
    {other : List Frame}
    (served : Served c [.received req true buf] front)
    (notWaiting : ¬ c.Waiting req)
    (store : next.store = c.store)
    (grows : Grows (fun _ => true) c.trace next.trace) :
    Served next other front := by
  cases served with
  | unanswered notResponded =>
      exact .unanswered (by simpa [Responded, store] using notResponded)
  | writing isWriting =>
      cases isWriting
  | unfinished started notCompleted =>
      exact .unfinished (started.grows grows)
        (by simpa [Completed, store] using notCompleted)
  | finishing _ isFinishing =>
      cases isFinishing
  | waiting started isWaiting left =>
      refine .waiting (started.grows grows)
        (by simpa [Waiting, store] using isWaiting) (Or.inl ?_)
      rcases left with notDone | ⟨frame, member, isEnd⟩
      · simpa [Done, store] using notDone
      · simp only [List.mem_singleton] at member
        subst frame
        cases isEnd
        exact (notWaiting isWaiting).elim

/-- A first request that is also the last one is alone. -/
theorem alone_of_head_last
    {c : ServerConnection}
    {req : Nat}
    (sorted : c.requests.Pairwise (· < ·))
    (isHead : c.requests.head? = some req)
    (isLast : c.requests.getLast? = some req) :
    c.requests = [req] := by
  cases shape : c.requests with
  | nil =>
      simp [shape] at isHead
  | cons front rest =>
      have same : front = req := by simpa [shape] using isHead
      subst front
      cases rest with
      | nil =>
          rfl
      | cons second others =>
          have inRest : req ∈ second :: others := by
            apply List.mem_of_getLast?
            simpa [shape] using isLast
          exact (not_head_of_rest sorted shape inRest isHead).elim

/-- The loop of `on_read` goes on, or it ends. -/
theorem Open.reread
    {c next : ServerConnection}
    {frame : Frame}
    {frames : List Frame}
    (buf : List Parsed)
    (isOpen : Open c [frame])
    (deferring : Deferring next frames)
    (listener : next.stream.listener = c.stream.listener)
    (shutdownRequested :
      next.stream.shutdownRequested = c.stream.shutdownRequested)
    (silent : c.Silent → next.Silent)
    (sameParsing : next.parsing = c.parsing)
    (sameRequests : next.requests = c.requests)
    (shape : frames = [] ∨ frames = [.onRead buf] ∧ (buf = [] ∨ ¬ next.Silent))
    (unfinished : ∀ req ∈ c.requests, ¬ next.Done req → ¬ next.Silent)
    (served : ∀ front ∈ c.requests.head?, Served next frames front) :
    Open next frames := by
  have flow := isOpen.flow
  have few : ∀ other ∈ frames, other = .onRead buf := by
    intro other member
    rcases shape with rfl | ⟨rfl, _⟩
    · cases member
    · simpa using member
  have noneHeld : held frames = [] := by
    rcases shape with rfl | ⟨rfl, _⟩ <;> rfl
  refine ⟨deferring, ?_, Or.inr (Or.inr ?_)⟩
  · refine
      { listener := listener.trans flow.listener
        notShut := shutdownRequested.trans flow.notShut
        noClose := ?_, looping := ?_, consumed := ?_, full := ?_
        failed := ?_, ignored := ?_, parsing := ?_
        heldStarted := by simp [noneHeld], unfinished := ?_ }
    · intro error soft member
      cases few _ member
    · intro result rest member
      cases few _ member
      rcases shape with rfl | ⟨rfl, empty | reads⟩
      · cases member
      · cases empty
      · exact .reading rfl reads
    · rintro req left (member | member) <;> cases few _ member
    · intro other member req isFull
      cases few _ member
      cases isFull
    · intro req error member
      cases few _ member
    · intro member
      cases few _ member
    · intro req isParsing
      rw [sameParsing] at isParsing
      rw [sameRequests]
      exact (flow.parsing req isParsing).imp_right silent
    · intro req member notDone
      rw [sameRequests] at member
      exact Or.inl (unfinished req member notDone)
  · rwa [sameRequests]

theorem Open.received
    {c next : ServerConnection}
    {req : Nat}
    {done : Bool}
    {buf : List Parsed}
    {frames : List Frame}
    (receiving : Receiving c [.received req done buf])
    (isOpen : Open c [.received req done buf])
    (deferring : Deferring next frames)
    (executed : c.received req done buf = .next next frames) :
    Open next frames := by
  have flow := isOpen.flow
  have same : Grows (fun _ => true) c.trace c.trace := Grows.refl c.trace
  have served :
      ∀ front ∈ c.requests.head?, Served c [.received req done buf] front := by
    rcases isOpen.front with isHeld | isFinished | served
    · simp [held, held?] at isHeld
    · simp at isFinished
    · exact served
  have reads :
      ∀ other ∈ c.requests, ¬ c.Done other → ¬ c.Silent := by
    intro other member notDone
    exact (flow.unfinished other member notDone).resolve_right
      (by simp [held, held?])
  cases done with
  | false =>
      have consumed : buf = [] := flow.consumed req buf (Or.inr (by simp))
      cases executed
      refine isOpen.reread buf deferring rfl rfl id rfl rfl
        (Or.inr ⟨rfl, Or.inl consumed⟩) reads ?_
      intro front isFront
      refine (served front isFront).shift (by simp) Iff.rfl Iff.rfl Iff.rfl
        Iff.rfl same ?_
      intro frame member isEnd
      simp only [List.mem_singleton] at member
      subst frame
      cases isEnd
  | true =>
      have isFull : req ∈ full? (.received req true buf) := rfl
      obtain ⟨idle, closing, isLast⟩ := flow.full _ (by simp) req isFull
      have done : c.Done req :=
        isOpen.deferring.received _ (by simp) req isFull
      simp only [ServerConnection.received, Bool.not_true,
        Bool.false_eq_true, ↓reduceIte] at executed
      split at executed
      · rename_i isWaiting
        cases executed
        obtain ⟨isHead, _⟩ :=
          isOpen.deferring.kept _ (by simp) req isFull isWaiting
        have only :=
          alone_of_head_last receiving.sorted isHead
            (isLast (List.mem_of_mem_head? isHead))
        have started : c.Started req :=
          (served req isHead).started (by simp)
            (isOpen.deferring.waiting req isWaiting).responded
        refine ⟨deferring, ?_, Or.inr (Or.inr ?_)⟩
        · refine
            { listener := flow.listener, notShut := flow.notShut
              noClose := by simp, looping := ?_, consumed := by simp
              full := by simp [full?], failed := by simp
              ignored := by simp, parsing := flow.parsing
              heldStarted := by simp [held, held?], unfinished := ?_ }
          · intro result rest member
            have left : result :: rest = buf := by simpa using member
            subst buf
            exact .finishing rfl closing only done
          · intro other member notDone
            exact Or.inl (reads other member notDone)
        · intro front isFront
          rw [isHead] at isFront
          cases isFront
          exact .finishing started rfl
      · rename_i notWaiting
        split at executed
        · cases executed
          have ignored : Grows (fun _ => true) c.trace c.readIgnore.trace :=
            Grows.snoc c.trace rfl
          refine isOpen.reread [] deferring rfl rfl ?_ rfl rfl
            (Or.inl rfl) ?_ ?_
          · intro _
            simp [Silent, canRead, ServerConnection.readIgnore]
          · -- the parser is between two requests, so none is unfinished
            intro other member notDone
            have isParsing := (receiving.unfinished other member notDone).1
            simp [idle] at isParsing
          · intro front isFront
            exact (served front isFront).shift_received notWaiting rfl ignored
        · rename_i going
          cases executed
          simp only [Bool.or_eq_true, not_or, Bool.not_eq_true] at going
          have stillReads : ¬ c.Silent := by
            intro silent
            simp [closing silent] at going
          refine isOpen.reread buf deferring rfl rfl id rfl rfl
            (Or.inr ⟨rfl, Or.inr stillReads⟩) reads ?_
          intro front isFront
          exact (served front isFront).shift_received notWaiting rfl same

/-- A buffer is parsed only while the stream is read. -/
theorem Flow.reads
    {c : ServerConnection}
    {result : Parsed}
    {buf : List Parsed}
    (flow : Flow c [.onRead (result :: buf)]) :
    ¬ c.Silent := by
  cases flow.looping result buf (by simp) with
  | reading _ reads =>
      exact reads
  | finishing shape _ _ _ =>
      cases shape
  | finished above shape _ _ _ =>
      have lengths := congrArg List.length shape
      simp at lengths

/-- The first request is served on when more of a request has been received. -/
theorem Served.renew
    {may : Event → Bool}
    {c next : ServerConnection}
    {stack frames : List Frame}
    {front : Nat}
    (served : Served c stack front)
    (idle : Idle stack)
    (noEnd : ∀ frame ∈ stack, ends? frame = none)
    (grows : Grows may c.trace next.trace)
    (response : (next.store front).response = (c.store front).response)
    (waits :
      (next.store front).finishOnReceive = (c.store front).finishOnReceive)
    (done :
      (next.store front).isDone = (c.store front).isDone ∨
        ¬ next.Done front ∨ ∃ frame ∈ frames, ends? frame = some front) :
    Served next frames front := by
  cases served with
  | unanswered notResponded =>
      exact .unanswered (by simpa [Responded, response] using notResponded)
  | writing isWriting =>
      exact (idle.1 isWriting).elim
  | unfinished started notCompleted =>
      refine .unfinished (started.grows grows) ?_
      simpa [Completed, ServerRequest.responseCompleted, response]
        using notCompleted
  | finishing _ isFinishing =>
      exact (idle.2 isFinishing).elim
  | waiting started isWaiting left =>
      refine .waiting (started.grows grows)
        (by simpa [Waiting, waits] using isWaiting) ?_
      rcases done with same | left
      · rcases left with notDone | ⟨frame, member, isEnd⟩
        · exact Or.inl (by simpa [Done, same] using notDone)
        · simp [noEnd frame member] at isEnd
      · exact left

theorem Open.parse
    {c next : ServerConnection}
    {result : Parsed}
    {buf : List Parsed}
    {frames : List Frame}
    (receiving : Receiving c [.onRead (result :: buf)])
    (isOpen : Open c [.onRead (result :: buf)])
    (deferring : Deferring next frames)
    (executed : c.onReadLoop (result :: buf) = .next next frames) :
    Open next frames := by
  have flow := isOpen.flow
  have reads := flow.reads
  have grows : Grows (emits (.onRead (result :: buf))) c.trace next.trace :=
    code_emits executed
  obtain ⟨parsed, req, parses, outcome⟩ := onReadLoop_next executed
  obtain ⟨base, stored, origin⟩ := parses.origin
  have same :
      next.stream = c.stream ∧ next.requests = parsed.requests ∧
        next.parsing = parsed.parsing ∧
        (∀ other, other ≠ req → next.store other = c.store other) ∧
        (next.store req).response = base.response ∧
        (next.store req).finishOnReceive = base.finishOnReceive ∧
        (next.store req).isDone = result.isDone := by
    cases outcome with
    | route _ _ =>
        refine ⟨parses.stream, rfl, rfl, ?_, by simp [stored],
          by simp [stored], by simp [stored]⟩
        intro other different
        simpa [different] using parses.others other different
    | _ =>
        exact ⟨parses.stream, rfl, rfl, parses.others, by simp [stored],
          by simp [stored], by simp [stored]⟩
  obtain ⟨stream, requests, parsing, others, response, waits, isDone⟩ := same
  have stillReads : ¬ next.Silent := by
    simpa [Silent, canRead, stream] using reads
  have isLast : next.requests.getLast? = some req := by
    rw [requests, parses.requests]
    split
    · assumption
    · simp
  have ends :
      result.isDone = true → ∃ frame ∈ frames, ends? frame = some req := by
    intro done
    cases outcome with
    | error _ | upgrade _ _ =>
        exact ⟨_, List.mem_cons_self, rfl⟩
    | headers isHeaders =>
        simp [isHeaders, Parsed.isDone] at done
    | again _ _ | route _ _ =>
        simp [done, ends?]
  refine ⟨deferring, ?_, Or.inr (Or.inr ?_)⟩
  · refine
      { listener := by rw [stream]; exact flow.listener
        notShut := by rw [stream]; exact flow.notShut
        noClose := ?_, looping := ?_, consumed := ?_, full := ?_
        failed := ?_, ignored := ?_, parsing := ?_, heldStarted := ?_
        unfinished := fun _ _ _ => Or.inl stillReads }
    · cases outcome <;> simp
    · cases outcome <;> simp
    · cases outcome <;> simp +contextual
    · intro frame member other isFull
      have atEnd : other = req ∧ result.isDone = true := by
        cases outcome <;> cases done : result.isDone <;>
          simp [done] at member <;>
          (try rcases member with rfl | rfl) <;>
          simp_all [full?]
      obtain ⟨rfl, done⟩ := atEnd
      refine ⟨?_, fun silent => (stillReads silent).elim, fun _ => isLast⟩
      rw [parsing, parses.parsing, done]
      rfl
    · intro other error member
      cases outcome <;> simp at member
      · exact ⟨member.1 ▸ isLast, by simp [member]⟩
      · exact ⟨member.1 ▸ isLast, by simp [member]⟩
    · intro member
      cases outcome <;> simp at member
      exact Or.inr ⟨_, _, rfl⟩
    · intro other isParsing
      rw [parsing, parses.parsing] at isParsing
      split at isParsing
      · cases isParsing
      · cases isParsing
        exact Or.inl (List.mem_of_getLast? isLast)
    · cases outcome <;> simp [held, held?]
  · intro front isFront
    have served :
        ∀ front ∈ c.requests.head?,
          Served c [.onRead (result :: buf)] front := by
      rcases isOpen.front with isHeld | isFinished | served
      · simp [held, held?] at isHeld
      · simp at isFinished
      · exact served
    have doneReq :
        ¬ next.Done req ∨ ∃ frame ∈ frames, ends? frame = some req := by
      cases done : result.isDone with
      | true =>
          exact Or.inr (ends done)
      | false =>
          exact Or.inl (by simp [Done, isDone, done])
    rw [requests, parses.requests] at isFront
    cases shape : c.requests with
    | nil =>
        -- the parser starts a request, since nothing is dropped while it reads
        have first : front = req := by
          have isReq : req = front := by simpa [shape] using isFront
          exact isReq.symm
        subst front
        rcases origin with ⟨wasParsing, _⟩ | ⟨_, fresh, _⟩
        · rcases flow.parsing req wasParsing with member | silent
          · simp [shape] at member
          · exact (reads silent).elim
        · exact .unanswered (by simp [Responded, response, fresh])
    | cons old rest =>
        have first : old = front := by
          rw [shape] at isFront
          split at isFront
          · simpa using isFront
          · simpa using isFront
        subst old
        have wasServed := served front (by simp [shape])
        by_cases isReq : front = req
        · subst front
          rcases origin with ⟨_, rfl, _⟩ | ⟨_, _, isNext, _⟩
          · exact wasServed.renew (by simp [Idle]) (by simp [ends?]) grows response
              waits (Or.inr doneReq)
          · have below :=
              receiving.requestsBelow req (by simp [shape])
            omega
        · have sameStore := others front isReq
          exact wasServed.renew (by simp [Idle]) (by simp [ends?]) grows
            (by rw [sameStore]) (by rw [sameStore])
            (Or.inl (by rw [sameStore]))

/-- A call that does not close the connection. -/
theorem Open.serves
    {may : Event → Bool}
    {c next : ServerConnection}
    {frames below : List Frame}
    (top : List Frame)
    (isOpen : Open c (top ++ below))
    (deferring : Deferring next (frames ++ below))
    (noError : ∀ req error, Frame.requestError req error ∉ top ++ below)
    (idle : Idle (top ++ below))
    (noneHeld : held top = [])
    (notFinished : Frame.finishReturn ∉ top)
    (noEnd : ∀ frame ∈ top, ends? frame = none)
    (steady : Steady c next)
    (level : Level c next)
    (grows : Grows may c.trace next.trace)
    (serves : Serves c next frames)
    (looping :
      ∀ result rest,
        Frame.onRead (result :: rest) ∈ below →
        Looping next (frames ++ below) (result :: rest)) :
    Open next (frames ++ below) := by
  have sameHeld : held (frames ++ below) = held (top ++ below) := by
    have heldTop : held (top ++ below) = held below := by
      simpa [held] using noneHeld
    rw [heldTop]
    cases serves <;> rfl
  have flat : ∀ frame ∈ frames, isFlat frame = true := by
    cases serves <;> simp [isFlat]
  exact ⟨deferring,
    isOpen.flow.push top noError steady level grows sameHeld flat looping,
    isOpen.front.serves top idle noneHeld notFinished noEnd steady grows
      serves⟩

theorem Open.tick
    {frame : Frame}
    {rest frames : List Frame}
    {c next : ServerConnection}
    (receiving : Receiving c (frame :: rest))
    (isOpen : Open c (frame :: rest))
    (notCallback : isCallback frame = false)
    (permitted : EndsReceived ⟨c, frame :: rest, none⟩ .tick)
    (executed : code frame c = .next next frames) :
    next.Closed ∨ Open next (frames ++ rest) := by
  have flow := isOpen.flow
  have grows : Grows (emits frame) c.trace next.trace := code_emits executed
  have deferring : Deferring next (frames ++ rest) := by
    refine isOpen.deferring.tick receiving ?_ executed
    rintro error returns rfl req _ other member isFull
    cases returns with
    | doClose soft =>
        exact (flow.noClose error soft (by simp)).elim
    | writeNextResponse _ _ =>
        exact isOpen.deferring.not_waiting rfl member isFull
  cases frame with
  | callback fired =>
      cases notCallback
  | fire fired =>
      right
      cases executed
      exact isOpen.flat deferring rfl (by simp [Idle]) (by simp)
        (Steady.emit c _) ⟨rfl, rfl, rfl, rfl⟩ grows rfl (by simp [isFlat])
        (by simp [isPlainFrame]) (fun _ _ => ⟨Iff.rfl, Iff.rfl⟩)
  | dropNotify req error =>
      right
      have calm :
          next = c ∧ (frames = [] ∨ ∃ fired, frames = [.fire fired]) := by
        simp only [code, dropNotify] at executed
        split at executed <;> split at executed <;> cases executed <;>
          simp
      obtain ⟨rfl, shape⟩ := calm
      refine isOpen.flat deferring rfl (by simp [Idle]) (by simp)
        (Steady.refl _) (Level.refl _) grows ?_ ?_ (by simp [isPlainFrame])
        (fun _ _ => ⟨Iff.rfl, Iff.rfl⟩)
      · rcases shape with rfl | ⟨fired, rfl⟩ <;> rfl
      · rcases shape with rfl | ⟨fired, rfl⟩ <;> simp [isFlat]
  | upgradeReturn =>
      right
      cases executed
      exact isOpen.flat deferring rfl (by simp [Idle]) (by simp)
        (Steady.emit c _) ⟨rfl, rfl, rfl, rfl⟩ grows rfl (by simp [isFlat])
        (by simp [isPlainFrame]) (fun _ _ => ⟨Iff.rfl, Iff.rfl⟩)
  | onRead buf =>
      right
      have alone := receiving.alone rfl
      subst rest
      cases buf with
      | nil =>
          cases executed
          refine isOpen.reread [] deferring rfl rfl id rfl rfl (Or.inl rfl)
            ?_ ?_
          · intro req member notDone
            exact (flow.unfinished req member notDone).resolve_right
              (by simp [held, held?])
          · rcases isOpen.front with isHeld | isFinished | served
            · simp [held, held?] at isHeld
            · simp at isFinished
            · intro front isFront
              refine (served front isFront).shift (by simp) Iff.rfl Iff.rfl
                Iff.rfl Iff.rfl grows ?_
              intro frame member isEnd
              simp only [List.mem_singleton] at member
              subst frame
              cases isEnd
      | cons result buf =>
          rw [List.append_nil] at deferring ⊢
          exact isOpen.parse receiving deferring executed
  | routed req done buf =>
      right
      have alone := receiving.alone rfl
      subst rest
      simp only [code, ServerConnection.routed] at executed
      split at executed
      · cases executed
        exact isOpen.routed [_] deferring (by simp)
      · split at executed
        · cases executed
          exact isOpen.routed [_, _] deferring (by simp)
        · cases executed
          exact isOpen.routed [] deferring (by simp)
  | received req done buf =>
      right
      have alone := receiving.alone rfl
      subst rest
      rw [List.append_nil] at deferring ⊢
      exact isOpen.received receiving deferring executed
  | requestError req error =>
      right
      cases executed
      exact isOpen.requestError _ receiving deferring permitted.1 permitted.2
  | requestErrorReturn req =>
      right
      obtain ⟨level, serves⟩ := serves_requestErrorReturn executed
      refine isOpen.serves [_] deferring (flow.noError (by simp))
        (by simp [Idle]) rfl (by simp) (by simp [ends?])
        (steady_requestErrorReturn executed) level grows serves ?_
      intro result buf member
      exact (flow.noBuffer rfl (by simp) (by simp) result buf member).elim
  | readIgnore =>
      right
      cases executed
      exact isOpen.readIgnore deferring
  | writeNextResponse =>
      exact Or.inr (isOpen.writeNextResponse receiving deferring executed)
  | finishRequest =>
      exact Or.inr (isOpen.finishRequest receiving deferring executed)
  | finishReturn =>
      exact isOpen.finishReturn deferring executed
  | dropRequests error returns =>
      exact Or.inr (isOpen.dropRequests receiving deferring executed)

/-- A read error is reported for the last request. -/
theorem Open.readFails
    {c next : ServerConnection}
    {req : Nat}
    {error : ErrorCode}
    (receiving : Receiving c [])
    (isOpen : Open c [])
    (received : Receiving next [.requestError req error])
    (deferring : Deferring next [.requestError req error])
    (grows : Grows (fun _ => true) c.trace next.trace)
    (fails :
      ReadFails { c with stream := { c.stream with ended := true } } next
        req) :
    Open next [.requestError req error] := by
  have nextSilent : next.Silent := by
    simp [Silent, canRead, fails.stream]
  have ended :
      next.requests.getLast? = some req ∧ next.Done req := by
    rcases fails.origin with
      ⟨last, _, requests, _, _, stored⟩ | ⟨_, _, requests, _, _, stored⟩
    · exact ⟨by rw [requests]; exact last, by simp [Done, stored]⟩
    · exact ⟨by simp [requests], by simp [Done, stored]⟩
  refine ⟨deferring, ?_, Or.inr (Or.inr ?_)⟩
  · refine
      { listener := by rw [fails.stream]; exact isOpen.flow.listener
        notShut := by rw [fails.stream]; exact isOpen.flow.notShut
        noClose := by simp, looping := by simp, consumed := by simp
        full := by simp [full?], failed := ?_, ignored := by simp
        parsing := fun _ _ => Or.inr nextSilent
        heldStarted := by simp [held, held?], unfinished := ?_ }
    · intro other code member
      simp only [List.mem_singleton, Frame.requestError.injEq] at member
      obtain ⟨rfl, rfl⟩ := member
      exact ⟨ended.1, Or.inl rfl⟩
    · intro other member notDone
      have isLast := (received.unfinished other member notDone).2
      rw [ended.1] at isLast
      cases isLast
      exact (notDone ended.2).elim
  · intro front isFront
    have served : ∀ front ∈ c.requests.head?, Served c [] front := by
      rcases isOpen.front with isHeld | isFinished | served
      · simp [held] at isHeld
      · simp at isFinished
      · exact served
    have ends :
        ∃ frame ∈ [Frame.requestError req error],
          ends? frame = some req :=
      ⟨_, List.mem_cons_self, rfl⟩
    rcases fails.origin with
      ⟨last, _, requests, _, _, stored⟩ |
        ⟨_, isNext, requests, _, _, stored⟩
    · rw [requests] at isFront
      by_cases isReq : front = req
      · subst front
        refine (served req isFront).renew (by simp [Idle]) (by simp) grows
          ?_ ?_ (Or.inr (Or.inr ends)) <;>
          simp [stored]
      · have sameStore := fails.others front isReq
        exact (served front isFront).renew (by simp [Idle]) (by simp) grows
          (by rw [sameStore]) (by rw [sameStore]) (Or.inl (by rw [sameStore]))
    · rw [requests] at isFront
      cases shape : c.requests with
      | nil =>
          have first : req = front := by simpa [shape] using isFront
          subst front
          exact .unanswered (by simp [Responded, stored])
      | cons old rest =>
          have first : old = front := by simpa [shape] using isFront
          subst old
          have below := receiving.requestsBelow front (by simp [shape])
          have newest : req = c.nextId := isNext
          have different : front ≠ req := by omega
          have sameStore := fails.others front different
          exact (served front (by simp [shape])).renew (by simp [Idle])
            (by simp) grows (by rw [sameStore]) (by rw [sameStore])
            (Or.inl (by rw [sameStore]))

/-- No code is on top when the application or the event loop calls. -/
theorem idle_of_boundary
    {stack : List Frame}
    (boundary : machine.atBoundary stack = true) :
    Idle stack := by
  constructor <;> intro top <;> cases stack <;>
    simp at top <;>
    simp [CallMachine.Machine.atBoundary, machine, isCallback, top] at boundary

/-- A call that does not close the connection, from a callback or from outside. -/
theorem Open.call
    {may : Event → Bool}
    {c next : ServerConnection}
    {stack frames : List Frame}
    (isOpen : Open c stack)
    (boundary : machine.atBoundary stack = true)
    (deferring : Deferring next (frames ++ stack))
    (steady : Steady c next)
    (level : Level c next)
    (grows : Grows may c.trace next.trace)
    (serves : Serves c next frames) :
    Open next (frames ++ stack) := by
  have flow := isOpen.flow
  have idle := idle_of_boundary boundary
  have noReader : ∀ buf below, stack ≠ .onRead buf :: below := by
    rintro buf below rfl
    simp [CallMachine.Machine.atBoundary, machine, isCallback] at boundary
  have noError : ∀ req error, Frame.requestError req error ∉ stack := by
    intro req error member
    rcases (flow.failed req error member).2 with rfl | rfl <;>
      simp [CallMachine.Machine.atBoundary, machine, isCallback] at boundary
  refine isOpen.serves [] deferring noError idle rfl (by simp) (by simp) steady
    level grows serves ?_
  intro result buf member
  cases flow.looping result buf member with
  | reading shape _ =>
      exact (noReader _ _ shape).elim
  | finishing shape _ _ _ =>
      exact (idle.2 (by simp [shape])).elim
  | finished above shape plain closing empty =>
      have none : frames = [] := by
        cases serves with
        | quiet _ =>
            rfl
        | writes nonempty =>
            exact (nonempty empty).elim
        | finishes isFront _ =>
            simp [empty] at isFront
      subst frames
      refine .finished above shape plain ?_ ?_
      · rw [level.silent, level.closing]
        exact closing
      · rw [steady.requests]
        exact empty

theorem Open.input
    {input : Input}
    {stack frames : List Frame}
    {c next : ServerConnection}
    (receiving : Receiving c stack)
    (isOpen : Open c stack)
    (boundary : machine.atBoundary stack = true)
    (accepted : accept input stack.head? c = some (.next next frames)) :
    next.Closed ∨ Open next (frames ++ stack) := by
  have flow := isOpen.flow
  have grows := accept_emits accepted
  have calm :
      (∀ req, input ≠ .upgrade req) →
      (∀ buf, input ≠ .onRead buf) →
      (∀ error, input ≠ .onReadError error) →
      next.Closed ∨ Open next (frames ++ stack) := by
    intro notUpgrade notRead notReadError
    obtain ⟨steady, _⟩ := calls_accept accepted notUpgrade notRead notReadError
    have deferring : Deferring next (frames ++ stack) :=
      isOpen.deferring.input receiving
        (fun req isUpgrade => (notUpgrade req isUpgrade).elim) accepted
    rcases serves_accept flow.notShut accepted notUpgrade notRead
      notReadError with closed | ⟨level, serves⟩
    · exact Or.inl closed
    · exact Or.inr
        (isOpen.call boundary deferring steady level grows serves)
  cases input with
  | upgrade req =>
      rcases requestUpgrade_next (Option.some.inj accepted) with
        ⟨rfl, rfl⟩ | ⟨_, _, _, rfl, _⟩
      · exact Or.inr isOpen
      · left
        simp [Closed, cleanupRequest, emit, setRequest, isEnd]
  | onRead buf =>
      right
      cases stack with
      | nil =>
          have deferring : Deferring next (frames ++ []) :=
            isOpen.deferring.input receiving (by simp) accepted
          simp only [List.head?_nil, accept] at accepted
          split at accepted
          · rename_i readable
            cases accepted
            have reads : ¬ c.Silent := by simp [Silent, readable]
            refine ⟨deferring, ?_, ?_⟩
            · refine
                { listener := flow.listener, notShut := flow.notShut
                  noClose := by simp, looping := ?_, consumed := by simp
                  full := by simp [full?], failed := by simp
                  ignored := by simp, parsing := flow.parsing
                  heldStarted := by simp [held, held?]
                  unfinished := fun _ _ _ => Or.inl reads }
              intro result rest member
              have left : result :: rest = buf := by simpa using member
              subst buf
              exact .reading rfl reads
            · exact isOpen.front.shift [] (by simp [Idle]) rfl (by simp) (by simp)
                (Steady.refl _) grows (fun _ _ => ⟨Iff.rfl, Iff.rfl⟩)
          · cases accepted
      | cons frame rest =>
          simp [accept] at accepted
  | onReadError error =>
      right
      cases stack with
      | nil =>
          have received : Receiving next (frames ++ []) :=
            receiving.input rfl accepted
          have deferring : Deferring next (frames ++ []) :=
            isOpen.deferring.input receiving (by simp) accepted
          simp only [List.head?_nil, accept] at accepted
          split at accepted
          · obtain ⟨req, rfl, fails⟩ :=
              onReadError_next (Option.some.inj accepted)
            exact isOpen.readFails receiving received deferring
              (grows.imp fun _ _ => rfl) fails
          · cases accepted
      | cons frame rest =>
          simp [accept] at accepted
  | _ =>
      apply calm <;> simp

/-! ## Every run -/

/-- The connection is closed, or its first request is served. -/
def Progressing (c : ServerConnection) (stack : List Frame) : Prop :=
  c.Closed ∨ Open c stack

/-- An exception that reaches the application keeps it. -/
theorem Progressing.threw
    {c : ServerConnection}
    {stack : List Frame}
    (progress : Progressing c stack)
    (boundary : machine.atBoundary stack = true)
    (exception : Exception) :
    Progressing (c.emit (.threw exception)) stack := by
  have steady := Steady.emit c (.threw exception)
  have grows :
      Grows (fun _ => true) c.trace (c.emit (.threw exception)).trace :=
    Grows.snoc c.trace rfl
  refine progress.imp (fun closed => closed.grows grows) fun isOpen => ?_
  exact isOpen.call boundary (isOpen.deferring.steady steady) steady
    ⟨rfl, rfl, rfl, rfl⟩ grows (Serves.of_store rfl)

/-- Every permitted step keeps the invariant of an open connection. -/
theorem progress_preserved :
    machine.Preserves EndsReceived
      (fun c stack => Receiving c stack ∧ Progressing c stack) := by
  apply preserves_of
  · intro frame rest c next frames notCallback permitted
      ⟨receiving, progress⟩ executed
    refine ⟨receiving.tick executed, ?_⟩
    rcases progress with closed | isOpen
    · exact Or.inl (closed.grows (code_emits executed))
    · exact isOpen.tick receiving notCallback permitted executed
  · intro fired rest c ⟨receiving, progress⟩
    refine ⟨receiving.ret, progress.imp_right ?_⟩
    intro isOpen
    have popped : Open c ([] ++ rest) :=
      isOpen.flat (isOpen.deferring.below [_]) rfl (by simp [Idle]) (by simp)
        (Steady.refl c) (Level.refl c) (Grows.refl _) rfl (by simp) (by simp)
        (fun _ _ => ⟨Iff.rfl, Iff.rfl⟩)
    exact popped
  · intro input stack c next frames boundary _ ⟨receiving, progress⟩ accepted
    refine ⟨receiving.input boundary accepted, ?_⟩
    rcases progress with closed | isOpen
    · exact Or.inl (closed.grows (accept_emits accepted))
    · exact isOpen.input receiving boundary accepted
  · intro stack c exception boundary ⟨receiving, progress⟩
    exact ⟨receiving.threw boundary, progress.threw boundary exception⟩

theorem open_initial (config : ConnectionConfig) :
    Open (initial config) [] where
  deferring := deferring_initial config
  flow :=
    { listener := rfl, notShut := rfl, noClose := by simp
      looping := by simp, consumed := by simp, full := by simp
      failed := by simp, ignored := by simp, parsing := by simp [initial]
      heldStarted := by simp [held], unfinished := by simp [initial] }
  front := Or.inr (Or.inr (by simp [initial]))

/-- When nothing runs, an open connection is not stuck. -/
theorem Open.unstuck
    {c : ServerConnection}
    (isOpen : Open c []) :
    Unstuck c := by
  have served : ∀ front ∈ c.requests.head?, Served c [] front := by
    rcases isOpen.front with isHeld | isFinished | served
    · simp [held] at isHeld
    · simp at isFinished
    · exact served
  constructor
  · intro front isFront completed
    cases served front isFront with
    | unanswered notResponded =>
        exact (notResponded completed.responded).elim
    | writing isWriting =>
        cases isWriting
    | unfinished _ notCompleted =>
        exact (notCompleted completed).elim
    | finishing _ isFinishing =>
        cases isFinishing
    | waiting _ isWaiting left =>
        have notDone : ¬ c.Done front := by
          rcases left with notDone | ⟨frame, member, _⟩
          · exact notDone
          · cases member
        refine ⟨notDone, isWaiting, ?_⟩
        exact (isOpen.flow.unfinished front (List.mem_of_mem_head? isFront)
          notDone).resolve_right (by simp [held])
  · intro front isFront responded
    exact (served front isFront).started (by simp) responded

/-- Where request errors end received requests, no first request is stuck. -/
theorem unstuck_of_endsReceived
    {config : ConnectionConfig}
    {labels : List Label}
    {final : Config}
    (ran : run? config labels = some final)
    (endsReceived : machine.Guarded EndsReceived (start config) labels)
    (quiet : final.stack = [])
    (notClosed : ¬ final.state.Closed) :
    Unstuck final.state := by
  have progress :=
    (progress_preserved.run
      (⟨receiving_initial config, Or.inr (open_initial config)⟩ :
        Receiving (start config).state (start config).stack ∧
          Progressing (start config).state (start config).stack)
      endsReceived ran).2
  rw [quiet] at progress
  exact (progress.resolve_left notClosed).unstuck

/-- A request is answered in its `route_event`, and its body is still to come. -/
def answeredBeforeBody : List Label :=
  .input (.onRead [.body {}]) ::
    [.tick, .tick, .input (.respond 0 {}), .tick, .tick, .ret, .tick, .tick,
      .tick]

theorem unstuck_answeredBeforeBody :
    ∃ final,
      run? {} answeredBeforeBody = some final ∧ Unstuck final.state ∧
        final.state.requests = [0] ∧ final.state.Completed 0 := by
  have endsReceived :
      machine.Guarded EndsReceived (start {}) answeredBeforeBody := by
    decide
  have ran : run? {} answeredBeforeBody = some _ := rfl
  exact ⟨_, ran, unstuck_of_endsReceived ran endsReceived rfl (by decide), rfl,
    by decide⟩

/-- The body of the answered request is malformed. -/
def malformedBody : List Label :=
  answeredBeforeBody ++
    ([.input (.onRead [.error (.foreign 0)]),
      .tick, .tick, .tick, .ret, .tick] : List Label)

/-- Nothing will finish the first request, and the connection stays open. -/
theorem malformedBody_stuck :
    ∃ final,
      run? {} malformedBody = some final ∧ ¬ Unstuck final.state ∧
        final.stack = [] ∧ ¬ final.state.Closed := by
  refine ⟨_, rfl, ?_, rfl, by decide⟩
  intro unstuck
  have notDone := (unstuck.waits 0 (by decide) (by decide)).1
  revert notDone
  decide

/-- A pipelined request for an upgrade has a body, and both requests are answered. -/
def upgradeWithBody : List Label :=
  [.input (.onRead [.done {}, .body { connection := "upgrade" }]),
    .tick, .tick, .ret, .tick, .tick, .ret, .tick, .ret, .tick,
    .tick, .tick, .tick, .ret, .tick, .tick,
    .input (.respond 0 {}),
    .tick, .tick, .tick, .ret, .tick, .tick, .tick]

/-- Its response waits for a body that is ignored. -/
theorem upgradeWithBody_stuck :
    ∃ final,
      run? {} upgradeWithBody = some final ∧ ¬ Unstuck final.state ∧
        final.stack = [] ∧ ¬ final.state.Closed := by
  refine ⟨_, rfl, ?_, rfl, by decide⟩
  intro unstuck
  have reads := (unstuck.waits 1 (by decide) (by decide)).2.2
  revert reads
  decide

end UniEventHttp.ServerConnection
