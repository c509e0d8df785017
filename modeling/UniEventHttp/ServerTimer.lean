import UniEventHttp.ServerDeeds
import UniEventHttp.ServerUpgrade

namespace UniEventHttp.ServerConnection

/-!
# The idle timer

The timer runs only while no request is in the deque, and a connection without
requests and without unfinished writes is under the timer.  This holds in every
run of a connection with an idle timeout.  Without one there is no timer, but
`check_if_idle` uses it all the same.
-/

/-! ## Steps that leave the timer alone -/

/-- The deque and the timer are the same, and at most more is written. -/
structure SameTimer (c next : ServerConnection) : Prop where
  config : next.config = c.config
  requests : next.requests = c.requests
  timer : next.idleTimer = c.idleTimer
  pending : c.stream.writeQueue ≤ next.stream.writeQueue
  shutdown : next.stream.shutdownRequested = c.stream.shutdownRequested
  listener : next.stream.listener = c.stream.listener
  closing : c.closing = true → next.closing = true
  stopping : c.stopping = true → next.stopping = true
  closed : c.Closed → next.Closed

namespace SameTimer

theorem refl (c : ServerConnection) : SameTimer c c :=
  ⟨rfl, rfl, rfl, Nat.le_refl _, rfl, rfl, id, id, id⟩

theorem trans
    {first second third : ServerConnection}
    (one : SameTimer first second)
    (two : SameTimer second third) :
    SameTimer first third where
  config := two.config.trans one.config
  requests := two.requests.trans one.requests
  timer := two.timer.trans one.timer
  pending := Nat.le_trans one.pending two.pending
  shutdown := two.shutdown.trans one.shutdown
  listener := two.listener.trans one.listener
  closing closing := two.closing (one.closing closing)
  stopping stopping := two.stopping (one.stopping stopping)
  closed closed := two.closed (one.closed closed)

theorem emit (c : ServerConnection) (event : Event) :
    SameTimer c (c.emit event) :=
  ⟨rfl, rfl, rfl, Nat.le_refl _, rfl, rfl, id, id,
    fun closed => (closed_emit c event).mpr (Or.inl closed)⟩

theorem setRequest
    (c : ServerConnection)
    (req : Nat)
    (request : ServerRequest) :
    SameTimer c (c.setRequest req request) :=
  ⟨rfl, rfl, rfl, Nat.le_refl _, rfl, rfl, id, id, id⟩

theorem of_calm
    {c next : ServerConnection}
    (calm : Calm c next) :
    SameTimer c next := by
  induction calm with
  | refl c =>
      exact refl c
  | trans _ _ one two =>
      exact one.trans two
  | emit c _ =>
      exact emit c _
  | write c piece =>
      exact ⟨rfl, rfl, rfl, Nat.le_succ _, rfl, rfl, id, id,
        (closed_write c piece).mpr⟩
  | readIgnore c =>
      exact ⟨rfl, rfl, rfl, Nat.le_refl _, rfl, rfl, id, id, fun closed => by
        simpa [Closed, ServerConnection.readIgnore, isEnd] using closed⟩
  | setRequest c req _ _ _ _ _ =>
      exact setRequest c req _
  | flags c processed closing stopping =>
      exact ⟨rfl, rfl, rfl, Nat.le_refl _, rfl, rfl, closing, stopping, id⟩

end SameTimer

/-- What a step does to the deque, the timer and the pending writes. -/
inductive TimerStep (c : ServerConnection) :
    Cause → ServerConnection → List Frame → Prop where
  /-- Nothing. -/
  | same {cause : Cause} {next : ServerConnection} {frames : List Frame} :
      SameTimer c next →
      (∀ frame ∈ cause.stack, suspends frame = false) →
      (∀ frame ∈ frames, suspends frame = false) →
      TimerStep c cause next frames
  /-- `finish_request` takes up the next response. -/
  | takesUp :
      c.requests ≠ [] →
      TimerStep c (.frame .finishReturn) c [.writeNextResponse]
  /-- A request is read, and the timer stops. -/
  | joins {cause : Cause} {next : ServerConnection} {frames : List Frame} :
      next.config = c.config →
      next.requests ≠ [] →
      next.idleTimer = c.idleTimer.map (fun _ => false) →
      next.stream.shutdownRequested = c.stream.shutdownRequested →
      next.stream.listener = c.stream.listener →
      (c.closing = true → next.closing = true) →
      (c.stopping = true → next.stopping = true) →
      (c.Closed → next.Closed) →
      (∀ frame ∈ cause.stack, suspends frame = false) →
      (∀ frame ∈ frames, suspends frame = false) →
      TimerStep c cause next frames
  /-- `write_next_response` takes the first request out of the deque. -/
  | holds {middle : ServerConnection} {req : Nat} {rest : List Nat}
      {error : Option ErrorCode} {chunks : List Data} :
      c.requests = req :: rest →
      SameTimer c middle →
      middle.closing = true →
      TimerStep c (.frame .writeNextResponse) { middle with requests := rest }
        [.dropRequests error (.writeNextResponse req chunks)]
  | leaves {req : Nat} {rest : List Nat} :
      c.requests = req :: rest →
      TimerStep c (.frame .finishRequest) (c.cleanupRequest req rest)
        [.fire (.finishEvent req), .finishReturn]
  | returns {next : ServerConnection} :
      c.closing = false →
      c.stopping = false →
      Idles c next →
      TimerStep c (.frame .finishReturn) next []
  | written {next : ServerConnection} :
      c.stream.listener = true →
      Idles
        { c with
          stream := { c.stream with writeQueue := c.stream.writeQueue - 1 } }
        next →
      TimerStep c (.input (.onWrite none)) next []
  | closes {cause : Cause} {middle next : ServerConnection}
      {error : Option ErrorCode} {soft : Bool} {frames : List Frame} :
      Closes c cause middle error soft →
      middle.doClose error soft = .next next frames →
      TimerStep c cause next frames
  | pops {error : Option ErrorCode} {returns : DropReturn} {req : Nat}
      {rest : List Nat} :
      c.requests = req :: rest →
      TimerStep c (.frame (.dropRequests error returns))
        ((c.cleanupRequest req rest).emit (.dropped req error))
        [.fire (.finishEvent req), .dropNotify req error,
          .dropRequests error returns]
  /-- The request that was held is back in the deque. -/
  | restores {error : Option ErrorCode} {req : Nat} {chunks : List Data}
      {next : ServerConnection} {frames : List Frame} :
      SameTimer { c with requests := [req] } next →
      (∀ frame ∈ frames, suspends frame = false) →
      TimerStep c (.frame (.dropRequests error (.writeNextResponse req chunks)))
        next frames
  /-- `drop_requests` returns to `do_close`. -/
  | closed {error : Option ErrorCode} {soft : Bool} {next : ServerConnection}
      {frames : List Frame} :
      SameTimer c next →
      (∀ frame ∈ frames, suspends frame = false) →
      TimerStep c (.frame (.dropRequests error (.doClose soft))) next frames
  | shutsDown :
      c.stream.shutdownRequested = true →
      TimerStep c (.input .onShutdown)
        (({ c.stopIdleTimer with
          stream := { c.stream with listener := false } } :
            ServerConnection).emit .removed)
        [.callback .stopEvent]
  | upgrades {req : Nat} :
      c.Attached req →
      iequals (c.store req).headers.connection "upgrade" = true →
      c.requests = [req] →
      TimerStep c (.input (.upgrade req))
        ((({ c with
          stream := { c.stream with listener := false }
          idleTimer := none } : ServerConnection).emit
            (.upgraded req)).cleanupRequest req [])
        [.fire (.finishEvent req), .upgradeReturn]

/-- Parsing stops the timer. -/
theorem timer_parseRequest (c : ServerConnection) (result : Parsed) :
    (c.parseRequest result).1.idleTimer = c.idleTimer.map (fun _ => false) ∧
      (c.parseRequest result).1.config = c.config := by
  cases parsing : c.parsing with
  | some req =>
      by_cases last : c.requests.getLast? = some req <;>
        simp [parseRequest, parseShift, stopIdleTimer, parsing, last,
          setRequest, append]
  | none =>
      by_cases last : c.requests.getLast? = some c.nextId <;>
        simp [parseRequest, parseShift, stopIdleTimer, parsing, last,
          setRequest, append, newRequest]

/-- Parsing keeps what has been observed. -/
theorem Parses.staysClosed
    {c next : ServerConnection}
    {result : Parsed}
    {req : Nat}
    (parses : Parses c result next req)
    (closed : c.Closed) :
    next.Closed := by
  unfold Closed at closed ⊢
  obtain ⟨_, _, ⟨_, _, _, trace⟩ | ⟨_, _, _, _, trace⟩⟩ := parses.origin <;>
    simp [trace, closed]

/-- Parsing is followed by code that leaves the timer alone. -/
theorem Admits.timer
    {parsed next : ServerConnection}
    {result : Parsed}
    {rest : List Parsed}
    {req : Nat}
    {frames : List Frame}
    (admits : Admits parsed result rest req next frames) :
    SameTimer parsed next ∧ ∀ frame ∈ frames, suspends frame = false := by
  cases admits with
  | error _ | headers _ | refuses _ _ _ | again _ _ =>
      exact ⟨SameTimer.refl _, by simp [suspends]⟩
  | routes _ _ _ =>
      exact ⟨SameTimer.setRequest _ _ _, by simp [suspends]⟩

theorem timer_onReadError
    {c next : ServerConnection}
    {error : ErrorCode}
    {frames : List Frame}
    (executed : c.onReadError error = .next next frames) :
    next.idleTimer = c.idleTimer.map (fun _ => false) ∧
      next.config = c.config := by
  unfold onReadError at executed
  dsimp only at executed
  split at executed
  · cases executed
  · cases executed
    dsimp only [ServerConnection.setRequest]
    split
    · exact ⟨rfl, rfl⟩
    · split <;> exact ⟨rfl, rfl⟩

theorem ReadFails.closed
    {c next : ServerConnection}
    {req : Nat}
    (fails : ReadFails c next req)
    (closed : c.Closed) :
    next.Closed := by
  unfold Closed at closed ⊢
  rcases fails.origin with ⟨_, _, _, _, trace, _⟩ | ⟨_, _, _, _, trace, _⟩ <;>
    simp [trace, closed]

/-- Every deed, as far as the timer is concerned. -/
theorem Deed.timer
    {c next : ServerConnection}
    {cause : Cause}
    {frames : List Frame}
    (deed : Deed c cause next frames) :
    TimerStep c cause next frames := by
  have same := @TimerStep.same c
  cases deed with
  | rests calm =>
      exact same (SameTimer.refl c) (fun frame member => (calm frame member).1)
        (by simp)
  | dropped _ =>
      exact .closed (SameTimer.refl c) (by simp)
  | fires callback =>
      exact same (SameTimer.emit c _) (by simp [Cause.stack, suspends])
        (by simp [suspends])
  | parses admits =>
      rename_i result rest
      obtain ⟨after, light⟩ := admits.timer
      have parses := parseRequest_parses c result
      obtain ⟨timer, config⟩ := timer_parseRequest c result
      refine .joins (after.config.trans config) ?_ (after.timer.trans timer)
        ?_ ?_ ?_ ?_ ?_ (by simp [Cause.stack, suspends]) light
      · rw [after.requests]
        exact parses.nonempty
      · rw [after.shutdown, parses.stream]
      · rw [after.listener, parses.stream]
      · exact fun closing => after.closing (parses.closing.trans closing)
      · exact fun stopping => after.stopping (parses.stopping.trans stopping)
      · exact fun closed => after.closed (parses.staysClosed closed)
  | delivers delivers =>
      refine same (SameTimer.refl c) (by simp [Cause.stack, suspends]) ?_
      cases delivers <;> simp [suspends]
  | goesOn goesOn =>
      cases goesOn with
      | unfinished | finishes _ | next _ _ _ =>
          exact same (SameTimer.refl c) (by simp [Cause.stack, suspends])
            (by simp [suspends])
      | stops _ _ =>
          exact same (SameTimer.of_calm (.readIgnore c)) (by simp [Cause.stack, suspends])
            (by simp)
  | reports req error =>
      exact same (SameTimer.of_calm (.readIgnore c)) (by simp [Cause.stack, suspends])
        (by simp [suspends])
  | answers answers _ _ _ =>
      rename_i front _ _
      refine same (SameTimer.of_calm (.takeResponse c _ _)) ?_ ?_
      · cases answers <;> simp [Cause.stack, suspends]
      · split <;> simp [suspends]
  | marks _ =>
      exact same (SameTimer.of_calm (.setResponse c _ _)) (by simp [Cause.stack, suspends])
        (by simp)
  | ignores =>
      exact same (SameTimer.of_calm (.readIgnore c)) (by simp [Cause.stack, suspends])
        (by simp)
  | writes shape _ writes =>
      cases writes with
      | finish writesHead _ =>
          exact same (SameTimer.of_calm (.writesHead writesHead))
            (by simp [Cause.stack, suspends]) (by simp [suspends])
      | flush writesHead _ =>
          exact same
            (SameTimer.of_calm
              ((Calm.writesHead writesHead).trans (.writeChunks _ _ _)))
            (by simp [Cause.stack, suspends]) (by simp)
      | hold _ _ =>
          refine .holds shape
            (SameTimer.of_calm
              ((Calm.writeHead c _ _).trans (.startClosing _ _))) ?_
          unfold startClosing
          dsimp only
          split <;> rfl
  | waits _ _ _ =>
      exact same (SameTimer.setRequest c _ _) (by simp [Cause.stack, suspends])
        (by simp)
  | leaves shape _ _ =>
      exact .leaves shape
  | takesUp _ _ shape _ =>
      exact .takesUp (by simp [shape])
  | returns closing stopping _ idles =>
      exact .returns closing stopping idles
  | closes closes executed =>
      exact .closes closes executed
  | pops shape =>
      exact .pops shape
  | finishesHeld _ _ =>
      exact .restores (SameTimer.refl _) (by simp [suspends])
  | flushesHeld _ _ =>
      exact .restores (SameTimer.of_calm (.writeChunks _ _ _)) (by simp)
  | notifies _ =>
      exact same (SameTimer.refl c) (by simp [Cause.stack, suspends])
        (by simp [suspends])
  | removes either =>
      rcases either with rfl | ⟨⟨error, rfl⟩, _⟩
      · exact same (SameTimer.emit c _) (by simp [Cause.stack, suspends])
          (by simp [suspends])
      · exact .closed (SameTimer.emit c _) (by simp [suspends])
  | shutsDown requested =>
      exact .shutsDown requested
  | upgrades attached wants alone =>
      exact .upgrades attached wants alone
  | stops _ =>
      refine same ?_ (by simp [Cause.stack]) (by simp)
      exact ⟨rfl, rfl, rfl, Nat.le_refl _, rfl, rfl, id, fun _ => rfl, id⟩
  | continues _ _ =>
      exact same (SameTimer.of_calm (.write c _)) (by simp [Cause.stack]) (by simp)
  | sendsChunk _ sends =>
      exact same (SameTimer.of_calm (.sendsChunk sends)) (by simp [Cause.stack]) (by simp)
  | sendsFinal _ sends =>
      refine same (SameTimer.of_calm (.sendsFinal sends)) (by simp [Cause.stack])
        ?_
      cases sends <;> simp [suspends]
  | enables req =>
      exact same (SameTimer.setRequest c _ _) (by simp [Cause.stack]) (by simp)
  | receives buf _ =>
      exact same (SameTimer.refl c) (by simp [Cause.stack])
        (by simp [suspends])
  | fails executed fails =>
      obtain ⟨timer, config⟩ := timer_onReadError executed
      refine .joins config fails.nonempty timer ?_ ?_ ?_ ?_ fails.closed
        (by simp [Cause.stack]) (by simp [suspends])
      · rw [fails.stream]
      · rw [fails.stream]
      · exact fun closing => fails.closing.trans closing
      · exact fun stopping => fails.stopping.trans stopping
  | written pending listener idles =>
      exact .written listener idles

/-! ## The invariant -/

/-- The invariant of the deque, the timer and the pending writes. -/
structure Timed (c : ServerConnection) (stack : List Frame) : Prop where
  armed : c.idleTimer = some true → c.requests = []
  held :
    ∀ error req chunks,
      .dropRequests error (.writeNextResponse req chunks) ∈ stack →
      c.closing = true ∧ c.idleTimer ≠ some true
  shut : c.stream.shutdownRequested = true → c.Closed
  dropping :
    ∀ error soft, .dropRequests error (.doClose soft) ∈ stack → c.Closed
  timer : ¬ c.Closed → c.config.idleTimeout ≠ 0 → c.idleTimer ≠ none
  idle :
    ¬ c.Closed →
    c.config.idleTimeout ≠ 0 →
    c.requests = [] →
    (∀ frame ∈ stack, suspends frame = false) →
    c.idleTimer = some true ∨ 0 < c.stream.writeQueue

/-- The frames that go on with the deque stay in the stack. -/
theorem mem_below
    {frame : Frame}
    {frames below : List Frame}
    (light : ∀ frame ∈ frames, suspends frame = false)
    (heavy : suspends frame = true)
    (member : frame ∈ frames ++ below) :
    frame ∈ below := by
  rcases List.mem_append.mp member with above | inBelow
  · have := light frame above
    rw [heavy] at this
    cases this
  · exact inBelow

theorem Timed.same
    {c next : ServerConnection}
    {top frames below : List Frame}
    (timed : Timed c (top ++ below))
    (same : SameTimer c next)
    (topLight : ∀ frame ∈ top, suspends frame = false)
    (light : ∀ frame ∈ frames, suspends frame = false) :
    Timed next (frames ++ below) where
  armed active := by
    rw [same.timer] at active
    rw [same.requests]
    exact timed.armed active
  held error req chunks member := by
    obtain ⟨closing, inactive⟩ := timed.held error req chunks
      (List.mem_append_right _ (mem_below light rfl member))
    rw [same.timer]
    exact ⟨same.closing closing, inactive⟩
  shut requested := by
    rw [same.shutdown] at requested
    exact same.closed (timed.shut requested)
  dropping error soft member :=
    same.closed
      (timed.dropping error soft
        (List.mem_append_right _ (mem_below light rfl member)))
  timer opened positive := by
    rw [same.timer]
    rw [same.config] at positive
    exact timed.timer (fun closed => opened (same.closed closed)) positive
  idle opened positive empty calm := by
    rw [same.config] at positive
    rw [same.requests] at empty
    have wasCalm : ∀ frame ∈ top ++ below, suspends frame = false := by
      intro frame member
      rcases List.mem_append.mp member with above | inBelow
      · exact topLight frame above
      · exact calm frame (List.mem_append_right _ inBelow)
    rw [same.timer]
    exact (timed.idle (fun closed => opened (same.closed closed)) positive
      empty wasCalm).imp_right fun pending =>
        Nat.lt_of_lt_of_le pending same.pending

/-- The invariant of a closed connection. -/
theorem Timed.of_closed
    {c : ServerConnection}
    {stack : List Frame}
    (closed : c.Closed)
    (armed : c.idleTimer = some true → c.requests = [])
    (held :
      ∀ error req chunks,
        .dropRequests error (.writeNextResponse req chunks) ∈ stack →
        c.closing = true ∧ c.idleTimer ≠ some true) :
    Timed c stack where
  armed := armed
  held := held
  shut _ := closed
  dropping _ _ _ := closed
  timer opened := (opened closed).elim
  idle opened := (opened closed).elim

/-- The invariant of a connection with a request. -/
theorem Timed.of_busy
    {c : ServerConnection}
    {stack : List Frame}
    (busy : c.requests ≠ [])
    (inactive : c.idleTimer ≠ some true)
    (closing :
      ∀ error req chunks,
        .dropRequests error (.writeNextResponse req chunks) ∈ stack →
        c.closing = true)
    (shut : c.stream.shutdownRequested = true → c.Closed)
    (dropping :
      ∀ error soft, .dropRequests error (.doClose soft) ∈ stack → c.Closed)
    (timer : ¬ c.Closed → c.config.idleTimeout ≠ 0 → c.idleTimer ≠ none) :
    Timed c stack where
  armed active := (inactive active).elim
  held error req chunks member :=
    ⟨closing error req chunks member, inactive⟩
  shut := shut
  dropping := dropping
  timer := timer
  idle _ _ empty := (busy empty).elim

/-- `check_if_idle` arms the timer of a connection that is idle. -/
theorem Timed.idles
    {c next : ServerConnection}
    {stack : List Frame}
    (idles : Idles c next)
    (armed : c.idleTimer = some true → c.requests = [])
    (held :
      ∀ error req chunks,
        .dropRequests error (.writeNextResponse req chunks) ∉ stack)
    (shut : c.stream.shutdownRequested = true → c.Closed)
    (dropping :
      ∀ error soft, .dropRequests error (.doClose soft) ∈ stack → c.Closed)
    (timer : ¬ c.Closed → c.config.idleTimeout ≠ 0 → c.idleTimer ≠ none) :
    Timed next stack := by
  have notHeld :
      ∀ (state : ServerConnection) error req chunks,
        .dropRequests error (.writeNextResponse req chunks) ∈ stack →
        state.closing = true ∧ state.idleTimer ≠ some true :=
    fun _ error req chunks member => (held error req chunks member).elim
  cases idles with
  | busy busy =>
      refine ⟨armed, notHeld c, shut, dropping, timer, ?_⟩
      exact fun _ _ empty => (busy empty).elim
  | already empty isTimer either =>
      refine ⟨armed, notHeld c, shut, dropping, timer, fun _ _ _ _ => ?_⟩
      rcases either with rfl | pending
      · exact Or.inl isTimer
      · exact Or.inr pending
  | arms empty isTimer _ =>
      refine ⟨fun _ => empty, notHeld _, shut, dropping, ?_, ?_⟩
      · exact fun _ _ => by simp
      · exact fun _ _ _ _ => Or.inl rfl

/-- What `do_close` is called on has the deque, and no timer has been armed. -/
theorem Closes.middle
    {c middle : ServerConnection}
    {cause : Cause}
    {error : Option ErrorCode}
    {soft : Bool}
    (closes : Closes c cause middle error soft) :
    middle.requests = c.requests ∧ middle.closing = c.closing ∧
      (middle.idleTimer = some true → c.idleTimer = some true) := by
  cases closes with
  | idle _ =>
      exact ⟨rfl, rfl, fun active => by cases active⟩
  | _ =>
      exact ⟨rfl, rfl, id⟩

theorem Timed.closes
    {c middle next : ServerConnection}
    {cause : Cause}
    {error : Option ErrorCode}
    {soft : Bool}
    {below frames : List Frame}
    (timed : Timed c (cause.stack ++ below))
    (closes : Closes c cause middle error soft)
    (executed : middle.doClose error soft = .next next frames) :
    Timed next (frames ++ below) := by
  obtain ⟨requests, closing, armed⟩ := closes.middle
  obtain ⟨closed, rfl⟩ := doClose_next executed
  have kept :
      next.requests = middle.requests ∧ next.closing = middle.closing ∧
        (next.idleTimer = some true → middle.idleTimer = some true) := by
    cases soft with
    | true =>
        cases executed
        exact ⟨rfl, rfl, id⟩
    | false =>
        cases executed
        refine ⟨rfl, rfl, fun active => ?_⟩
        simp [stopIdleTimer] at active
  refine Timed.of_closed closed (fun active => ?_) ?_
  · rw [kept.1, requests]
    exact timed.armed (armed (kept.2.2 active))
  · intro held req chunks member
    have below : .dropRequests held (.writeNextResponse req chunks) ∈ below := by
      simpa using member
    obtain ⟨isClosing, inactive⟩ :=
      timed.held held req chunks (List.mem_append_right _ below)
    refine ⟨?_, fun active => inactive (armed (kept.2.2 active))⟩
    rw [kept.2.1, closing]
    exact isClosing

/-- No deed breaks the invariant. -/
theorem Timed.step
    {c next : ServerConnection}
    {cause : Cause}
    {below frames : List Frame}
    (timed : Timed c (cause.stack ++ below))
    (fits : cause.Fits below)
    (stepped : TimerStep c cause next frames) :
    Timed next (frames ++ below) := by
  have heldBelow :
      ∀ error req chunks,
        .dropRequests error (.writeNextResponse req chunks) ∈ below →
        c.closing = true ∧ c.idleTimer ≠ some true :=
    fun error req chunks member =>
      timed.held error req chunks (List.mem_append_right _ member)
  have droppingBelow :
      ∀ error soft, .dropRequests error (.doClose soft) ∈ below → c.Closed :=
    fun error soft member =>
      timed.dropping error soft (List.mem_append_right _ member)
  have inactive : c.requests ≠ [] → c.idleTimer ≠ some true :=
    fun busy active => busy (timed.armed active)
  cases stepped with
  | same same topLight light =>
      exact timed.same same topLight light
  | takesUp busy =>
      refine Timed.of_busy busy (inactive busy) ?_ timed.shut ?_ timed.timer
      · intro error req chunks member
        exact (heldBelow error req chunks (by simpa using member)).1
      · intro error soft member
        exact droppingBelow error soft (by simpa using member)
  | joins config busy stops shutdown _ closing _ closed _ light =>
      have stopped : next.idleTimer ≠ some true := by
        rw [stops]
        cases c.idleTimer <;> simp
      refine Timed.of_busy busy stopped ?_ ?_ ?_ ?_
      · intro error req chunks member
        exact closing (heldBelow error req chunks (mem_below light rfl member)).1
      · intro requested
        rw [shutdown] at requested
        exact closed (timed.shut requested)
      · intro error soft member
        exact closed (droppingBelow error soft (mem_below light rfl member))
      · intro opened positive
        rw [config] at positive
        rw [stops]
        have some := timed.timer (fun wasClosed => opened (closed wasClosed))
          positive
        simpa using some
  | holds shape same closing =>
      rename_i middle req rest error chunks
      have notArmed : middle.idleTimer ≠ some true := by
        rw [same.timer]
        exact inactive (by simp [shape])
      refine ⟨fun active => (notArmed active).elim, ?_, ?_, ?_, ?_, ?_⟩
      · exact fun _ _ _ _ => ⟨closing, notArmed⟩
      · intro requested
        have requested : middle.stream.shutdownRequested = true := requested
        rw [same.shutdown] at requested
        exact same.closed (timed.shut requested)
      · intro error soft member
        exact same.closed (droppingBelow error soft (by simpa using member))
      · intro opened positive
        have positive : middle.config.idleTimeout ≠ 0 := positive
        rw [same.config] at positive
        change middle.idleTimer ≠ none
        rw [same.timer]
        exact timed.timer (fun closed => opened (same.closed closed)) positive
      · intro _ _ _ calm
        have := calm (.dropRequests error (.writeNextResponse req chunks))
          (by simp)
        cases this
  | leaves shape =>
      rename_i req rest
      have notArmed := inactive (by simp [shape])
      refine ⟨fun active => (notArmed active).elim, ?_, ?_, ?_, ?_, ?_⟩
      · intro error req chunks member
        exact heldBelow error req chunks (by simpa using member)
      · intro requested
        exact (closed_emit _ _).mpr (Or.inl (timed.shut requested))
      · intro error soft member
        exact (closed_emit _ _).mpr
          (Or.inl (droppingBelow error soft (by simpa using member)))
      · intro opened positive
        refine timed.timer (fun closed => opened ?_) positive
        exact (closed_emit _ _).mpr (Or.inl closed)
      · intro _ _ _ calm
        have := calm .finishReturn (by simp)
        cases this
  | returns closing stopping idles =>
      refine Timed.idles idles timed.armed ?_ timed.shut droppingBelow timed.timer
      intro error req chunks member
      rw [(heldBelow error req chunks member).1] at closing
      cases closing
  | written listener idles =>
      have nothing := fits.2 rfl
      subst nothing
      refine Timed.idles idles timed.armed (by simp) timed.shut (by simp)
        timed.timer
  | closes closes executed =>
      exact timed.closes closes executed
  | pops shape =>
      rename_i error returns req rest
      have notArmed := inactive (by simp [shape])
      refine ⟨fun active => (notArmed active).elim, ?_, ?_, ?_, ?_, ?_⟩
      · intro held other chunks member
        exact timed.held held other chunks (by simpa [Cause.stack] using member)
      · intro requested
        exact (closed_emit _ _).mpr
          (Or.inl ((closed_emit _ _).mpr (Or.inl (timed.shut requested))))
      · intro held soft member
        refine (closed_emit _ _).mpr (Or.inl ((closed_emit _ _).mpr (Or.inl ?_)))
        exact timed.dropping held soft (by simpa [Cause.stack] using member)
      · intro opened positive
        refine timed.timer (fun closed => opened ?_) positive
        exact (closed_emit _ _).mpr
          (Or.inl ((closed_emit _ _).mpr (Or.inl closed)))
      · intro _ _ _ calm
        have := calm (.dropRequests error returns) (by simp)
        cases this
  | restores same light =>
      rename_i error req chunks
      obtain ⟨closing, notArmed⟩ := timed.held error req chunks (by simp [Cause.stack])
      refine Timed.of_busy ?_ ?_ ?_ ?_ ?_ ?_
      · rw [same.requests]
        simp
      · rw [same.timer]
        exact notArmed
      · exact fun _ _ _ _ => same.closing closing
      · intro requested
        rw [same.shutdown] at requested
        exact same.closed (timed.shut requested)
      · intro error soft member
        exact same.closed (droppingBelow error soft (mem_below light rfl member))
      · intro opened positive
        rw [same.config] at positive
        rw [same.timer]
        exact timed.timer (fun closed => opened (same.closed closed)) positive
  | closed same light =>
      rename_i error soft
      have closed := timed.dropping error soft (by simp [Cause.stack])
      refine Timed.of_closed (same.closed closed) ?_ ?_
      · rw [same.timer, same.requests]
        exact timed.armed
      · intro error req chunks member
        obtain ⟨closing, notArmed⟩ :=
          heldBelow error req chunks (mem_below light rfl member)
        rw [same.timer]
        exact ⟨same.closing closing, notArmed⟩
  | shutsDown requested =>
      have nothing := fits.2 rfl
      subst nothing
      refine Timed.of_closed ?_ ?_ (by simp)
      · exact (closed_emit _ _).mpr (Or.inl (timed.shut requested))
      · intro active
        simp [emit, stopIdleTimer] at active
  | upgrades attached wants isAlone =>
      refine Timed.of_closed ?_ ?_ ?_
      · refine (closed_emit _ _).mpr (Or.inl ?_)
        exact (closed_emit _ _).mpr (Or.inr rfl)
      · intro active
        simp [cleanupRequest, emit, setRequest] at active
      · intro error req chunks member
        obtain ⟨closing, _⟩ := heldBelow error req chunks (by simpa using member)
        exact ⟨closing, by simp [cleanupRequest, emit, setRequest]⟩

/-- The configuration of a connection does not change. -/
theorem TimerStep.config
    {c next : ServerConnection}
    {cause : Cause}
    {frames : List Frame}
    (stepped : TimerStep c cause next frames) :
    next.config = c.config := by
  have idled :
      ∀ {before after : ServerConnection},
        Idles before after → after.config = before.config := by
    intro before after idles
    cases idles <;> rfl
  cases stepped with
  | same same _ _ | holds _ same _ | restores same _ | closed same _ =>
      exact same.config
  | joins config _ _ _ _ _ _ _ _ _ =>
      exact config
  | returns _ _ idles =>
      exact idled idles
  | written _ idles =>
      have kept := idled idles
      exact kept
  | closes closes executed =>
      rename_i middle error soft
      have middle : middle.config = c.config := by
        cases closes <;> rfl
      rw [← middle]
      cases soft <;> cases executed <;> rfl
  | _ =>
      rfl

theorem timed_start (config : ConnectionConfig) :
    Timed (initial config) [] := by
  refine ⟨fun _ => rfl, by simp, ?_, by simp, ?_, ?_⟩
  · intro requested
    cases requested
  · intro _ positive
    simp [initial] at positive ⊢
    exact positive
  · intro _ positive _ _
    left
    simp [initial] at positive ⊢
    exact positive

theorem preserves_timed
    (guard : Config → Label → Prop)
    (config : ConnectionConfig) :
    machine.Preserves guard fun c stack =>
      Receiving c stack ∧ Timed c stack ∧ c.config = config := by
  refine preserves_of_deeds ?_ ?_ ?_
  · rintro cause below c next frames _ fits _ ⟨timed, fixed⟩ deed
    exact ⟨timed.step fits deed.timer, deed.timer.config.trans fixed⟩
  · rintro callback rest c ⟨timed, fixed⟩
    have above : Timed c ([.callback callback] ++ rest) := timed
    have returned : Timed c ([] ++ rest) :=
      above.same (SameTimer.refl c) (by simp [suspends]) (by simp)
    exact ⟨returned, fixed⟩
  · rintro _ stack c exception _ _ _ ⟨timed, fixed⟩
    have above : Timed c ([] ++ stack) := timed
    have threw : Timed (c.emit (.threw exception)) ([] ++ stack) :=
      above.same (SameTimer.emit c _) (by simp) (by simp)
    exact ⟨threw, fixed⟩

/-! ## Every run -/

/-- The timer of a connection on which nothing runs, as long as it is open. -/
structure IdleDiscipline (c : ServerConnection) : Prop where
  /-- The assertion of the timer's callback holds; no request is cut off. -/
  armed : c.idleTimer = some true → c.requests = []
  /-- An idle connection will be closed by the timer. -/
  idle :
    c.requests = [] → c.stream.writeQueue = 0 → c.idleTimer = some true

/-- In every run the timer runs exactly while the connection is idle. -/
theorem idleDiscipline
    (config : ConnectionConfig)
    (labels : List Label)
    (final : Config)
    (positive : 0 < config.idleTimeout)
    (ran : run? config labels = some final)
    (quiescent : final.stack = [])
    (opened : ¬ final.state.Closed) :
    IdleDiscipline final.state := by
  have preserves := preserves_timed (fun _ _ => True) config
  obtain ⟨_, timed, fixed⟩ :=
    preserves.run ⟨receiving_initial config, timed_start config, rfl⟩
      (CallMachine.Machine.guarded_true machine (start config) labels) ran
  refine ⟨timed.armed, fun empty written => ?_⟩
  have limited : final.state.config.idleTimeout ≠ 0 := by
    rw [fixed]
    exact Nat.pos_iff_ne_zero.mp positive
  have either := timed.idle opened limited empty (by simp [quiescent])
  exact either.resolve_right (by simp [written])

/-- A request is answered, and its response is written. -/
def answeredOnce : List Label :=
  .input (.onRead [.done {}]) ::
    [.tick, .tick, .ret, .tick, .tick, .ret, .tick,
      .input (.respond 0 { code := 200 }), .tick, .tick, .tick, .ret, .tick,
      .ret, .tick, .tick, .input (.onWrite none)]

theorem idleDiscipline_answeredOnce :
    ∃ final,
      run? {} answeredOnce = some final ∧ final.state.idleTimer = some true ∧
        IdleDiscipline final.state :=
  ⟨_, rfl, rfl, idleDiscipline {} answeredOnce _ (by decide) rfl rfl
    (by decide)⟩

/-! ## The timer that is not there -/

/-- `check_if_idle` looks at a timer that exists. -/
def FindsTimer (config : Config) (label : Label) : Prop :=
  let c := config.state
  match label, config.stack with
  | .tick, .finishReturn :: _ =>
      c.requests = [] →
      c.config.idleTimeout = 0 ∨ c.Upgraded →
      c.closing = true ∨ c.stopping = true
  | .input (.onWrite none), _ =>
      c.requests = [] → c.config.idleTimeout ≠ 0
  | _, _ => True

instance (config : Config) (label : Label) :
    Decidable (FindsTimer config label) :=
  match label, config with
  | .tick, ⟨_, [], _⟩ =>
      inferInstanceAs (Decidable True)
  | .tick, ⟨c, frame :: _, _⟩ =>
      match frame with
      | .finishReturn =>
          inferInstanceAs (Decidable
            (c.requests = [] →
              c.config.idleTimeout = 0 ∨ c.Upgraded →
              c.closing = true ∨ c.stopping = true))
      | .callback _ | .fire _ | .onRead _ | .routed _ _ _ | .received _ _ _ |
        .requestError _ _ | .requestErrorReturn _ | .readIgnore |
        .writeNextResponse | .finishRequest | .dropRequests _ _ | .dropNotify _ _ |
        .upgradeReturn =>
          inferInstanceAs (Decidable True)
  | .input input, ⟨c, _, _⟩ =>
      match input with
      | .onWrite none =>
          inferInstanceAs (Decidable (c.requests = [] → c.config.idleTimeout ≠ 0))
      | .onWrite (some _) | .respond _ _ | .sendContinue _ | .sendChunk _ _ |
        .sendFinalChunk _ _ | .drop _ | .upgrade _ | .enablePartial _ | .close _ |
        .shutdown _ | .gracefulStop | .onRead _ | .onReadError _ | .onEof |
        .onShutdown | .onConnectionError _ | .idleTimeout =>
          inferInstanceAs (Decidable True)
  | .ret, _ | .throw, _ =>
      inferInstanceAs (Decidable True)

/-- Only a timer that was never made or that `upgrade` has taken is missing. -/
def Excused (c : ServerConnection) : Prop :=
  c.idleTimer = none →
  c.config.idleTimeout = 0 ∨ c.Upgraded ∧ c.stream.listener = false

theorem checkIfIdle_null
    {c : ServerConnection}
    {reason : Fault}
    (executed : c.checkIfIdle = .fault reason) :
    c.requests = [] ∧ c.idleTimer = none := by
  unfold checkIfIdle at executed
  split at executed
  · rename_i empty
    split at executed
    · rename_i missing
      exact ⟨empty, missing⟩
    · split at executed <;> cases executed
  · cases executed

theorem respond_fault
    {c : ServerConnection}
    {req : Nat}
    {response : ServerResponse}
    {reason : Fault}
    (executed : c.respond req response = .fault reason) :
    reason ≠ .nullIdleTimer := by
  unfold respond at executed
  split at executed
  · cases executed
    simp
  · split at executed
    · cases executed
    · dsimp only at executed
      split at executed
      · cases executed
        simp
      · split at executed <;> cases executed

/-- A frame that uses a missing timer is `finish_request` with an empty deque. -/
theorem code_null
    {c : ServerConnection}
    {frame : Frame}
    (executed : code frame c = .fault .nullIdleTimer) :
    frame = .finishReturn ∧ c.requests = [] ∧ c.idleTimer = none ∧
      ¬ (c.closing = true ∨ c.stopping = true) := by
  cases frame with
  | finishReturn =>
      change c.finishReturn = _ at executed
      unfold finishReturn at executed
      split at executed
      · split at executed <;> cases executed
      · rename_i going
        split at executed
        · rename_i empty
          obtain ⟨_, missing⟩ := checkIfIdle_null executed
          exact ⟨rfl, empty, missing, by simpa using going⟩
        · split at executed <;> cases executed
  | callback _ | fire _ | requestError _ _ | readIgnore | upgradeReturn =>
      cases executed
  | onRead buf =>
      change c.onReadLoop buf = _ at executed
      cases buf with
      | nil =>
          cases executed
      | cons result rest =>
          unfold onReadLoop at executed
          dsimp only at executed
          split at executed
          · cases executed
          · cases executed
          · split at executed
            · cases executed
            · split at executed <;> cases executed
          · split at executed
            · cases executed
            · split at executed <;> cases executed
  | routed req done buf =>
      change c.routed req done buf = _ at executed
      unfold routed at executed
      split at executed
      · cases executed
      · split at executed <;> cases executed
  | received req done buf =>
      change c.received req done buf = _ at executed
      unfold received at executed
      split at executed
      · cases executed
      · split at executed
        · cases executed
        · split at executed <;> cases executed
  | requestErrorReturn req =>
      change c.requestErrorReturn req = _ at executed
      unfold requestErrorReturn at executed
      split at executed
      · exact (respond_fault executed rfl).elim
      · split at executed <;> cases executed
  | writeNextResponse =>
      change c.writeNextResponse = _ at executed
      unfold writeNextResponse flushResponse at executed
      dsimp only at executed
      split at executed
      · cases executed
      · split at executed
        · cases executed
        · split at executed
          · split at executed
            · split at executed <;> cases executed
            · cases executed
          · split at executed <;> cases executed
  | finishRequest =>
      change c.finishRequest = _ at executed
      unfold finishRequest at executed
      split at executed
      · cases executed
      · split at executed
        · cases executed
        · split at executed <;> cases executed
  | dropRequests error returns =>
      change c.dropRequests error returns = _ at executed
      unfold dropRequests flushResponse at executed
      split at executed
      · cases executed
      · split at executed
        · cases executed
        · cases executed
        · split at executed <;> cases executed
  | dropNotify req error =>
      change c.dropNotify req error = _ at executed
      unfold dropNotify at executed
      dsimp only at executed
      split at executed
      · split at executed <;> cases executed
      · split at executed <;> cases executed

theorem responseSend_fault
    {c : ServerConnection}
    {req : Nat}
    {send : ServerResponse → Step}
    {reason : Fault}
    (sends : ∀ response, send response ≠ .fault reason) :
    c.responseSend req send ≠ .fault reason := by
  unfold responseSend
  split
  · simp
  · split
    · simp [throwing]
    · split
      · exact sends _
      · simp

/-- A call that uses a missing timer is the end of a write with an empty deque. -/
theorem accept_null
    {c : ServerConnection}
    {input : Input}
    {top : Option Frame}
    (accepted : accept input top c = some (.fault .nullIdleTimer)) :
    input = .onWrite none ∧ c.requests = [] ∧ c.idleTimer = none ∧
      c.stream.listener = true := by
  cases input with
  | respond req response =>
      simp only [accept] at accepted
      split at accepted
      · cases accepted
      · simp only [Option.some.injEq, requestRespond] at accepted
        split at accepted
        · exact (respond_fault accepted rfl).elim
        · cases accepted
  | sendContinue req =>
      simp only [accept, Option.some.injEq, requestSendContinue,
        sendContinue] at accepted
      split at accepted
      · split at accepted
        · cases accepted
        · split at accepted
          · cases accepted
          · split at accepted
            · cases accepted
            · split at accepted <;> cases accepted
      · cases accepted
  | sendChunk req data =>
      refine (responseSend_fault (fun response => ?_)
        (Option.some.inj accepted)).elim
      unfold sendChunk
      dsimp only
      split
      · simp
      · split
        · simp
        · split <;> simp
  | sendFinalChunk req data =>
      refine (responseSend_fault (fun response => ?_)
        (Option.some.inj accepted)).elim
      unfold sendFinalChunk
      dsimp only
      split
      · simp
      · split <;> simp
  | drop req =>
      simp only [accept, Option.some.injEq, requestDrop] at accepted
      split at accepted <;> cases accepted
  | upgrade req =>
      simp only [accept, Option.some.injEq, requestUpgrade,
        ServerConnection.upgrade] at accepted
      split at accepted
      · cases accepted
      · split at accepted
        · cases accepted
        · split at accepted <;> cases accepted
  | enablePartial req | close error | shutdown error =>
      cases accepted
  | gracefulStop =>
      simp only [accept, Option.some.injEq, gracefulStop] at accepted
      split at accepted <;> cases accepted
  | onRead buf | onEof | onShutdown | onConnectionError error =>
      cases top <;> simp only [accept, reduceCtorEq] at accepted
      split at accepted <;> cases accepted
  | onReadError error =>
      cases top <;> simp only [accept, reduceCtorEq] at accepted
      split at accepted
      · simp only [Option.some.injEq, onReadError] at accepted
        split at accepted <;> cases accepted
      · cases accepted
  | onWrite error =>
      cases top <;> simp only [accept, reduceCtorEq] at accepted
      split at accepted
      · rename_i pending
        simp only [Bool.and_eq_true] at pending
        cases error with
        | some error =>
            cases accepted
        | none =>
            obtain ⟨empty, missing⟩ :=
              checkIfIdle_null (Option.some.inj accepted)
            exact ⟨rfl, empty, missing, pending.1⟩
      · cases accepted
  | idleTimeout =>
      cases top <;> simp only [accept, reduceCtorEq] at accepted
      split at accepted
      · simp only [Option.some.injEq, onIdleTimeout] at accepted
        split at accepted <;> cases accepted
      · cases accepted

/-- Only an upgrade takes the timer, and nothing brings the listener back. -/
theorem TimerStep.lasting
    {c next : ServerConnection}
    {cause : Cause}
    {frames : List Frame}
    (stepped : TimerStep c cause next frames) :
    (next.idleTimer = none →
        c.idleTimer = none ∨ next.Upgraded ∧ next.stream.listener = false) ∧
      (c.stream.listener = false → next.stream.listener = false) := by
  have idled :
      ∀ {before after : ServerConnection},
        Idles before after →
        (after.idleTimer = none → before.idleTimer = none) ∧
          after.stream = before.stream := by
    intro before after idles
    cases idles with
    | busy _ | already _ _ _ =>
        exact ⟨id, rfl⟩
    | arms _ _ _ =>
        exact ⟨fun missing => (by cases missing), rfl⟩
  cases stepped with
  | same same _ _ | holds _ same _ | restores same _ | closed same _ =>
      exact ⟨fun missing => Or.inl (same.timer.symm.trans missing),
        fun gone => same.listener.trans gone⟩
  | joins _ _ timer _ listener _ _ _ _ _ =>
      refine ⟨fun missing => Or.inl ?_, fun gone => listener.trans gone⟩
      rw [timer] at missing
      simpa using missing
  | returns _ _ idles =>
      obtain ⟨timer, stream⟩ := idled idles
      exact ⟨fun missing => Or.inl (timer missing),
        fun gone => by rw [stream]; exact gone⟩
  | written _ idles =>
      obtain ⟨timer, stream⟩ := idled idles
      exact ⟨fun missing => Or.inl (timer missing),
        fun gone => by rw [stream]; exact gone⟩
  | closes closes executed =>
      rename_i middle error soft
      have middle :
          (middle.idleTimer = none → c.idleTimer = none) ∧
            (c.stream.listener = false → middle.stream.listener = false) := by
        cases closes with
        | idle _ =>
            exact ⟨fun missing => (by cases missing), id⟩
        | _ =>
            exact ⟨id, id⟩
      cases soft with
      | true =>
          cases executed
          exact ⟨fun missing => Or.inl (middle.1 missing), middle.2⟩
      | false =>
          cases executed
          refine ⟨fun missing => Or.inl (middle.1 ?_), fun _ => rfl⟩
          simpa [stopIdleTimer, emit] using missing
  | shutsDown _ =>
      refine ⟨fun missing => Or.inl ?_, fun _ => rfl⟩
      simpa [stopIdleTimer, emit] using missing
  | upgrades _ _ _ =>
      refine ⟨fun _ => Or.inr ⟨?_, rfl⟩, fun _ => rfl⟩
      simp [Upgraded, cleanupRequest, emit, setRequest, isUpgrade]
  | _ =>
      exact ⟨Or.inl, id⟩

theorem Upgraded.grows
    {c next : ServerConnection}
    {may : Event → Bool}
    (upgraded : c.Upgraded)
    (grows : Grows may c.trace next.trace) :
    next.Upgraded := by
  obtain ⟨events, trace, _⟩ := grows
  unfold Upgraded at upgraded ⊢
  simp [trace, upgraded]

theorem Excused.step
    {c next : ServerConnection}
    {cause : Cause}
    {frames : List Frame}
    {may : Event → Bool}
    (excused : Excused c)
    (deed : Deed c cause next frames)
    (grows : Grows may c.trace next.trace) :
    Excused next := by
  intro missing
  obtain ⟨timer, listener⟩ := deed.timer.lasting
  rw [deed.timer.config]
  rcases timer missing with wasMissing | upgraded
  · exact (excused wasMissing).imp_right fun upgraded =>
      ⟨upgraded.1.grows grows, listener upgraded.2⟩
  · exact Or.inr upgraded

/-- A permitted step finds the timer that it uses. -/
theorem maintains_excused :
    machine.Maintains FindsTimer Excused (· ≠ .nullIdleTimer) where
  tick frame rest c _ permitted excused := by
    change (code frame c).Holds _ _
    cases executed : code frame c with
    | next next frames =>
        exact excused.step (code_deed executed) (code_emits executed)
    | raise next =>
        exact (code_ne_raise frame c next executed).elim
    | fault reason =>
        rintro rfl
        obtain ⟨rfl, empty, missing, going⟩ := code_null executed
        refine going (permitted empty ?_)
        exact (excused missing).imp_right And.left
  input input stack c outcome _ permitted excused accepted := by
    cases outcome with
    | next next frames =>
        exact excused.step (accept_deed accepted) (accept_emits accepted)
    | raise next =>
        obtain ⟨exception, rfl⟩ := accept_raise accepted
        have grew :
            Grows (fun _ => true) c.trace (c.emit (.threw exception)).trace :=
          Grows.snoc c.trace rfl
        intro missing
        exact (excused missing).imp_right fun upgraded =>
          ⟨upgraded.1.grows grew, upgraded.2⟩
    | fault reason =>
        rintro rfl
        obtain ⟨rfl, empty, missing, listener⟩ := accept_null accepted
        rcases excused missing with unlimited | upgraded
        · exact permitted empty unlimited
        · rw [upgraded.2] at listener
          cases listener

/--
A run in which `check_if_idle` is not reached with an empty deque, where there is
no idle timeout or after an upgrade, uses no missing timer.
-/
theorem timerFound_of_findsTimer
    (config : ConnectionConfig)
    (labels : List Label)
    (final : Config)
    (finds : machine.Guarded FindsTimer (start config) labels)
    (ran : run? config labels = some final) :
    final.fault ≠ some .nullIdleTimer := by
  have excused : Excused (start config).state := by
    intro missing
    left
    simpa [start, initial] using missing
  obtain ⟨_, reasons⟩ := maintains_excused.run excused rfl finds ran
  exact fun isNull => reasons _ isNull rfl

theorem timerFound_answeredOnce :
    ∃ final,
      run? {} answeredOnce = some final ∧
        final.fault ≠ some .nullIdleTimer :=
  ⟨_, rfl, timerFound_of_findsTimer {} answeredOnce _ (by decide) rfl⟩

/-- A request is upgraded while the one before it is being finished. -/
def upgradedInFinish : List Label :=
  [.input (.onRead [.done {}, .done { connection := "Upgrade" }]),
    .tick, .tick, .ret, .tick, .tick, .ret, .tick, .ret, .tick,
    .tick, .tick, .ret, .tick, .tick, .ret, .tick, .ret, .tick, .tick,
    .input (.respond 0 { code := 200 }), .tick, .tick, .tick,
    .input (.upgrade 1), .tick, .ret, .tick, .ret, .ret, .tick]

/--
The end of a request uses a missing timer: without an idle timeout it is that of
the first request, and with one that of a request behind which one is upgraded.
-/
theorem nullIdleTimer_reached :
    (run? { idleTimeout := 0 } (answeredOnce.take 14)).map (·.fault) =
        some (some .nullIdleTimer) ∧
      (run? {} upgradedInFinish).map (·.fault) = some (some .nullIdleTimer) :=
  ⟨rfl, rfl⟩

end UniEventHttp.ServerConnection
