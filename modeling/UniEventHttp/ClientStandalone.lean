import UniEventHttp.ClientAccounts
import UniEventHttp.ClientConnections
import UniEventHttp.ClientErrors

namespace UniEventHttp.ClientSide.World

/-!
# Clients without a pool

A client that no pool has made is given its requests by the application, and by the
redirects that it follows.  Without pools only a redirect can leave a submission
without an end: when `Client::request` refuses the redirected request, nobody has it
any more.
-/

/-! ## The condition -/

/-- `Client::request` would set up a connection for the request, and cannot. -/
def LacksSetup (w : World) (c r : Nat) : Prop :=
  w.Joins c r ∧ w.Reconnects c r ∧ w.RefusesRequest r

/-- The redirected request of the client passes its check, and can be connected. -/
def MayRestart (w : World) (c : Nat) : Prop :=
  ∀ r ∈ (w.clients c).request,
    (w.requests r).check = none ∧ ¬ w.RefusesRequest r

/-- A redirected request can be started again, and nothing is thrown on. -/
def RestartsIn (w : World) : Frame → Prop
  | .redirected c => (w.clients c).redirectCanceled = false → w.MayRestart c
  | .rethrow => False
  | _ => True

/--
Pools are not used, no callback is left by an exception, and no request is cancelled
without an error.  Connections can be set up for the requests of the application, and
redirected requests can be started again.
-/
def StaysAlone (config : Config) : Label → Prop
  | .tick => ∀ frame ∈ config.stack.head?, config.state.RestartsIn frame
  | .ret => True
  | .throw => False
  | .input (.poolRequest _ _) | .input (.agentRequest _ _ _ _) => False
  | .input (.clientRequest c r) => ¬ config.state.LacksSetup c r
  | .input (.cancel _ error) | .input (.clientCancel _ error) => error ≠ none
  | .input _ => True

instance (w : World) (c r : Nat) : Decidable (w.LacksSetup c r) :=
  decidable_of_iff
    (((w.clients c).request = none ∧ (w.requests r).client = none ∧
        (w.requests r).check = none) ∧
      ((w.clients c).tcp.status ≠ .connected ∨
        (w.clients c).netloc ≠ w.location r ∨
          (w.requests r).keepAlive = false) ∧
        w.RefusesSetup (w.requests r).toRequestFields.withScheme)
    (and_congr_left fun _ =>
      ⟨fun ⟨idle, unlinked, checked⟩ => ⟨idle, unlinked, checked⟩,
        fun joins => ⟨joins.idle, joins.unlinked, joins.checked⟩⟩)

instance (w : World) (c : Nat) : Decidable (w.MayRestart c) :=
  inferInstanceAs (Decidable
    (∀ r ∈ (w.clients c).request,
      (w.requests r).check = none ∧
        ¬ w.RefusesSetup (w.requests r).toRequestFields.withScheme))

instance (w : World) (frame : Frame) : Decidable (w.RestartsIn frame) := by
  unfold RestartsIn
  split <;> infer_instance

instance (config : Config) (label : Label) : Decidable (StaysAlone config label) :=
  match label with
  | .tick =>
      inferInstanceAs
        (Decidable (∀ frame ∈ config.stack.head?, config.state.RestartsIn frame))
  | .ret => inferInstanceAs (Decidable True)
  | .throw => inferInstanceAs (Decidable False)
  | .input input =>
      match input with
      | .poolRequest _ _ | .agentRequest _ _ _ _ =>
          inferInstanceAs (Decidable False)
      | .clientRequest c r =>
          inferInstanceAs (Decidable (¬ config.state.LacksSetup c r))
      | .cancel _ error | .clientCancel _ error =>
          inferInstanceAs (Decidable (error ≠ none))
      | .edit _ _ | .listen _ | .newClient _ | .sendChunk _ _ |
        .sendFinalChunk _ _ | .maxConnections _ _ | .advance _ _ | .onConnect _ _ | .onWrite _ _ |
        .onRead _ _ | .onReadError _ _ | .onEof _ _ _ | .onTimer _ |
        .streamData _ _ _ | .streamFinish _ _ _ | .checkInactivity _ =>
          inferInstanceAs (Decidable True)

/-! ## Worlds without pools -/

/-- No client, no request and no list belongs to a pool. -/
structure Poolless (w : World) : Prop where
  client : ∀ c, (w.clients c).pool = none
  lists : ∀ p key, (w.pools p).clients key = none
  request : ∀ r, (w.requests r).pool = none

/-- Without pools, each link of a request is a link of its client too. -/
structure Alone (w : World) : Prop extends Poolless w where
  back :
    ∀ r c,
      (w.requests r).client = some c →
      (w.clients c).request = some r

section Alone

variable {w next : World}

theorem Alone.tunes (alone : Alone w) (tunes : Tunes w next) : Alone next where
  client c := (tunes.pool c).trans (alone.client c)
  lists p key := by
    rw [tunes.pools]
    exact alone.lists p key
  request r := (tunes.owner r).trans (alone.request r)
  back r c linked := by
    rw [tunes.link] at linked
    rw [tunes.request]
    exact alone.back r c linked

theorem Alone.started
    {c r : Nat}
    (poolless : Poolless w)
    (back :
      ∀ s d,
        s ≠ r →
        (w.requests s).client = some d →
        (w.clients d).request = some s)
    (started : Started w c r next) :
    Alone next where
  client d := by
    by_cases same : d = c
    · rw [same, started.client]
      exact poolless.client c
    · rw [started.clients d same]
      exact poolless.client d
  lists p key := by
    rw [started.pools]
    exact poolless.lists p key
  request s := by
    by_cases same : s = r
    · rw [same, started.request]
      exact poolless.request r
    · rw [started.requests s same]
      exact poolless.request s
  back s d linked := by
    by_cases isStarted : s = r
    · rw [isStarted, started.request] at linked
      obtain rfl : c = d := by simpa using linked
      rw [isStarted, started.client]
    · rw [started.requests s isStarted] at linked
      have was := back s d isStarted linked
      have other : d ≠ c := by
        rintro rfl
        rw [started.idle] at was
        cases was
      rw [started.clients d other]
      exact was

/-- A client that gives its request up leaves the other links as they are. -/
theorem Alone.detached
    {c r : Nat}
    (alone : Alone w)
    (active : (w.clients c).request = some r) :
    Poolless (w.detached c) ∧
      ∀ s d,
        s ≠ r →
        ((w.detached c).requests s).client = some d →
        ((w.detached c).clients d).request = some s := by
  refine ⟨⟨fun d => ?_, alone.lists, alone.request⟩, fun s d other linked => ?_⟩
  · by_cases same : d = c
    · rw [same]
      simpa [World.detached, World.setClient] using alone.client c
    · simpa [World.detached, World.setClient, same] using alone.client d
  · have was := alone.back s d linked
    have elsewhere : d ≠ c := by
      rintro rfl
      rw [active] at was
      exact other (Option.some.inj was).symm
    simpa [World.detached, World.setClient, elsewhere] using was

theorem Poolless.tunes
    (poolless : Poolless w)
    (tunes : Tunes w next) :
    Poolless next where
  client c := (tunes.pool c).trans (poolless.client c)
  lists p key := by
    rw [tunes.pools]
    exact poolless.lists p key
  request r := (tunes.owner r).trans (poolless.request r)

/-- The links of the other requests survive what starts and ends nothing. -/
theorem back_tunes
    {r : Nat}
    (tunes : Tunes w next)
    (back :
      ∀ s d,
        s ≠ r →
        (w.requests s).client = some d →
        (w.clients d).request = some s) :
    ∀ s d,
      s ≠ r →
      (next.requests s).client = some d →
      (next.clients d).request = some s := by
  intro s d other linked
  rw [tunes.link] at linked
  rw [tunes.request]
  exact back s d other linked

theorem Alone.ends
    {c r : Nat}
    (alone : Alone w)
    (ends : Ends w c r next) :
    Alone next := by
  obtain ⟨active, middle, released, tunes, releases, rfl⟩ := ends
  obtain ⟨detached, others⟩ := alone.detached active
  have poolless : Poolless middle := detached.tunes tunes
  have back := back_tunes tunes others
  cases releases with
  | back inPool _ =>
      rw [poolless.client] at inPool
      cases inPool
  | alone _ =>
      have here :
          (middle.ending r).requests r = (middle.requests r).finished := by
        simp [World.ending, World.setRequest, World.emit]
      have elsewhere :
          ∀ s, s ≠ r → (middle.ending r).requests s = middle.requests s := by
        intro s other
        simp [World.ending, World.setRequest, World.emit, other]
      refine ⟨⟨poolless.client, poolless.lists, fun s => ?_⟩,
        fun s d linked => ?_⟩
      · by_cases same : s = r
        · rw [same, here]
          rfl
        · rw [elsewhere s same]
          exact poolless.request s
      · by_cases same : s = r
        · rw [same, here] at linked
          cases linked
        · rw [elsewhere s same] at linked
          exact back s d same linked

theorem Alone.follows
    {c r : Nat}
    (alone : Alone w)
    (follows : Follows w c r next) :
    Alone next := by
  cases follows with
  | pooled _ inPool _ _ _ =>
      rw [alone.client] at inPool
      cases inPool
  | same active tunes started =>
      obtain ⟨detached, others⟩ := alone.detached active
      have leaves : Poolless (w.leaving c r) := by
        refine ⟨detached.client, detached.lists, fun s => ?_⟩
        by_cases same : s = r
        · simpa [leaving, World.setRequest, same, Request.cleanupAfterRedirect]
            using alone.request r
        · simpa [leaving, World.setRequest, same] using detached.request s
      refine Alone.started (leaves.tunes tunes) (back_tunes tunes ?_) started
      intro s d other linked
      refine others s d other ?_
      simpa [leaving, World.setRequest, other] using linked

theorem Alone.act (alone : Alone w) (act : Act w next) : Alone next := by
  cases act with
  | tunes tunes =>
      exact alone.tunes tunes
  | ends tunes ends =>
      exact (alone.tunes tunes).ends ends
  | follows tunes follows =>
      exact (alone.tunes tunes).follows follows
  | dequeues tunes waits =>
      obtain ⟨entry, present, _⟩ := waits
      rw [(alone.tunes tunes).lists] at present
      cases present

/-- Links, pools and lists are as they were. -/
theorem Alone.congr
    (alone : Alone w)
    (pool : ∀ c, (next.clients c).pool = (w.clients c).pool)
    (request : ∀ c, (next.clients c).request = (w.clients c).request)
    (lists : ∀ p key, (next.pools p).clients key = (w.pools p).clients key)
    (requests : ∀ r,
      (next.requests r).client = (w.requests r).client ∧
        (next.requests r).pool = (w.requests r).pool) :
    Alone next where
  client c := (pool c).trans (alone.client c)
  lists p key := (lists p key).trans (alone.lists p key)
  request r := (requests r).2.trans (alone.request r)
  back r c linked := by
    rw [(requests r).1] at linked
    rw [request]
    exact alone.back r c linked

theorem Alone.parseShift
    (alone : Alone w)
    (c buffer context : Nat)
    (result : Parsed) :
    Alone (w.parseShift c buffer context result) := by
  refine alone.congr (fun d => ?_) (fun d => ?_) (fun _ _ => rfl)
    fun _ => ⟨rfl, rfl⟩ <;>
  · by_cases same : d = c <;> simp [World.parseShift, World.setClient, emit, same]

theorem Alone.setLibrary
    (alone : Alone w)
    (r : Nat)
    (request : Request)
    (link : request.client = (w.requests r).client)
    (owner : request.pool = (w.requests r).pool) :
    Alone (w.setRequest r request) := by
  refine alone.congr (fun _ => rfl) (fun _ => rfl) (fun _ _ => rfl) fun s => ?_
  by_cases same : s = r
  · simp [World.setRequest, same, link, owner]
  · simp [World.setRequest, same]

theorem Alone.newClient
    (alone : Alone w)
    (loop : Nat)
    (fresh : (w.clients w.nextClient).request = none) :
    Alone (w.newClient loop none) where
  client c := by
    by_cases same : c = w.nextClient
    · simp [World.newClient, World.setClient, same]
    · simpa [World.newClient, World.setClient, same] using alone.client c
  lists := alone.lists
  request := alone.request
  back r c linked := by
    have was := alone.back r c linked
    have other : c ≠ w.nextClient := by
      rintro rfl
      rw [fresh] at was
      cases was
    simpa [World.newClient, World.setClient, other] using was

end Alone

/-! ## What throws nothing -/

section Calm

variable {w : World}

theorem raises_of_never
    {step : Step}
    (never : ∀ next, step ≠ .raise next) :
    raises step = false := by
  cases step with
  | raise next => exact (never next rfl).elim
  | next _ _ | fault _ => rfl

@[simp] theorem raises_andFrames (step : Step) (frames : List Frame) :
    raises (andFrames step frames) = raises step := by
  cases step <;> rfl

/-- Nothing is taken from a queue when a request ends. -/
theorem finishRequest_calm
    (poolless : Poolless w)
    (c : Nat)
    (error : Option ErrorCode) :
    raises (w.finishRequest c error) = false := by
  refine raises_of_never fun next raised => ?_
  obtain ⟨r, active, left, p, tunes, inPool, _⟩ :=
    (finishRequest_act w c error).raises next raised
  have alone : (left.clients c).pool = none := by
    rw [tunes.pool]
    simpa [World.detached, World.setClient] using poolless.client c
  rw [alone] at inPool
  cases inPool

theorem cancel_calm
    (poolless : Poolless w)
    (c : Nat)
    (error : Option ErrorCode) :
    raises (w.cancel c error) = false := by
  unfold cancel
  dsimp only
  split
  · rfl
  · refine finishRequest_calm (poolless.tunes ?_) c error
    exact Tunes.setClient w c _ rfl rfl rfl rfl (Or.inr rfl) (Or.inl rfl)

theorem analyzeRequest_calm
    (poolless : Poolless w)
    (c : Nat) :
    raises (w.analyzeRequest c) = false := by
  unfold analyzeRequest
  dsimp only
  split
  · rfl
  · rfl
  · rename_i r response _ _
    split
    · rfl
    · split
      · split
        · exact cancel_calm poolless c _
        · have counted :=
            poolless.tunes (Tunes.setRequest w r
              { w.requests r with
                redirectionCounter :=
                  ((w.requests r).redirectionCounter + 1) % 2 ^ 16 }
              rfl rfl rfl rfl (.refl _))
          split
          · exact cancel_calm counted c _
          · split
            · exact cancel_calm counted c _
            · rfl
      · exact finishRequest_calm poolless c none

theorem onReadLoop_calm
    (poolless : Poolless w)
    (c buffer : Nat)
    (buf : List Parsed) :
    raises (w.onReadLoop c buffer buf) = false := by
  cases buf with
  | nil =>
      rfl
  | cons result rest =>
      simp only [onReadLoop]
      split
      · rfl
      · rename_i context _
        have parsed : Poolless (w.parseShift c buffer context result) := by
          refine ⟨fun d => ?_, poolless.lists, poolless.request⟩
          rw [← poolless.client d]
          by_cases same : d = c <;>
            simp [World.parseShift, World.setClient, emit, same]
        cases result with
        | error error _ =>
            exact cancel_calm parsed c _
        | headers =>
            rfl
        | body response =>
            exact raises_of_never fun next raised =>
              (receivePart_tunes _ c _).raises next raised
        | done _ =>
            rw [raises_andFrames]
            exact analyzeRequest_calm parsed c

theorem onEof_calm
    (poolless : Poolless w)
    (c : Nat)
    (error : Option ErrorCode)
    (response : Response) :
    raises (w.onEof c error response) = false := by
  unfold onEof
  dsimp only
  split
  · rfl
  · rfl
  · have ended :=
      poolless.tunes (Tunes.setClient w c
        { w.clients c with
          response := some { response with isDone := true }, parsing := none }
        rfl rfl rfl rfl (Or.inr rfl) (Or.inl rfl))
    split
    · exact cancel_calm ended c _
    · exact analyzeRequest_calm ended c

theorem formFileComplete_calm
    (poolless : Poolless w)
    (c : Nat)
    (error : Option ErrorCode) :
    raises (w.formFileComplete c error) = false := by
  unfold formFileComplete
  split
  · exact finishRequest_calm poolless c _
  · dsimp only
    generalize w.setClient c
      { w.clients c with formField := (w.clients c).formField + 1 } = next
    refine raises_of_never fun after raised => ?_
    rcases Straight.before_raise raised with thrown | ⟨middle, _, goesOn⟩
    · cases active : (next.clients c).request with
      | none =>
          simp [sendForm, active] at thrown
      | some r =>
          have post := sendForm_post next c r active
          rw [thrown] at post
          exact post
    · cases goesOn

/-- A redirected request has left its client, and has what it had. -/
theorem hopping_left (w : World) (c r : Nat) (response : Response) :
    ((w.hopping c r response).clients c).request = none ∧
      (w.hopping c r response).requests r =
          (w.requests r).cleanupAfterRedirect ∧
        (w.hopping c r response).config = w.config ∧
          (w.hopping c r response).verifyContext = w.verifyContext := by
  rw [hopping_eq]
  split <;>
    simp [leaving, World.detached, World.reset, World.setTcp, World.setClient,
      World.setRequest]

theorem followRedirect_calm
    {c r : Nat}
    (poolless : Poolless w)
    (checked : (w.requests r).check = none)
    (supports : ¬ w.RefusesRequest r)
    (response : Response)
    (next : World) :
    w.followRedirect c r response ≠ .raise next := by
  obtain ⟨idle, fields, config, verifyContext⟩ := hopping_left w c r response
  have joins : (w.hopping c r response).Joins c r := by
    refine ⟨idle, ?_, ?_⟩
    · rw [fields]
      rfl
    · rw [fields]
      exact checked
  unfold followRedirect
  dsimp only
  rw [poolless.client]
  rcases clientRequest_cases (w.hopping c r response) c r with
    ⟨apart, _⟩ | ⟨_, ⟨_, refuses⟩, _⟩ | ⟨_, _, never⟩
  · exact (apart joins).elim
  · refine (supports ?_).elim
    unfold RefusesRequest at refuses ⊢
    rw [fields] at refuses
    exact (refusesSetup_congr config verifyContext _).mp refuses
  · exact never next

/-- A redirected request that may be started again is started again. -/
theorem redirected_calm
    {c : Nat}
    (poolless : Poolless w)
    (restarts : (w.clients c).redirectCanceled = false → w.MayRestart c) :
    raises (w.redirected c) = false := by
  unfold redirected
  dsimp only
  split
  · rfl
  · rename_i goesOn
    have left :
        Poolless (w.setClient c { w.clients c with inRedirect := false }) :=
      poolless.tunes
        (Tunes.setClient w c _ rfl rfl rfl rfl (Or.inl rfl) (Or.inl rfl))
    split
    · rfl
    · rfl
    · rename_i r response active _
      obtain ⟨checked, supports⟩ :=
        restarts (by simpa using goesOn) r active
      refine raises_of_never fun next raised => ?_
      rcases Straight.before_raise raised with thrown | ⟨_, _, never⟩
      · split at thrown
        · refine followRedirect_calm (left.tunes ?_) ?_ ?_ response next thrown
          · exact Tunes.setRequest _ r _ rfl rfl rfl rfl (.refl _)
          · simpa [World.setRequest, World.setClient, Request.check] using checked
          · simpa [RefusesRequest, RefusesSetup, LacksContext, RefusesProxy,
              WorldConfig.verifies, RequestFields.withScheme, World.setRequest,
              World.setClient] using supports
        · exact followRedirect_calm left checked supports response next thrown
      · cases never

theorem requestCancel_calm
    (poolless : Poolless w)
    (r : Nat)
    (error : Option ErrorCode) :
    raises (w.requestCancel r error) = false := by
  unfold requestCancel
  dsimp only
  split
  · exact cancel_calm poolless _ error
  · exact raises_of_never (cancelRequest_ends w _ r error).raises
  · rfl

theorem fireTimer_calm
    (poolless : Poolless w)
    (r : Nat)
    (timer : Timer) :
    raises (w.fireTimer r timer) = false := by
  have rung :
      Poolless
        (w.setRequest r
          { w.requests r with timer := some { timer with deadline := none } }) := by
    refine ⟨poolless.client, poolless.lists, fun s => ?_⟩
    by_cases same : s = r
    · simpa [World.setRequest, same] using poolless.request r
    · simpa [World.setRequest, same] using poolless.request s
  unfold fireTimer
  dsimp only
  split
  · unfold onTimer
    dsimp only
    split
    · exact cancel_calm rung _ _
    · exact raises_of_never (cancelRequest_ends _ _ r _).raises
    · rfl
  · rfl

/-- All frames but those of a redirect that cannot go on and of an exception. -/
theorem code_calm
    (poolless : Poolless w)
    {frame : Frame}
    (goesOn :
      ∀ c,
        frame = .redirected c →
        (w.clients c).redirectCanceled = false →
        w.MayRestart c)
    (notThrown : frame ≠ .rethrow) :
    raises (code frame w) = false := by
  cases frame with
  | redirected c =>
      exact redirected_calm poolless (goesOn c rfl)
  | rethrow =>
      exact (notThrown rfl).elim
  | onRead c buffer buf =>
      exact onReadLoop_calm poolless c buffer buf
  | redirectCatch c =>
      change raises (andFrames (cancel _ c _) _) = false
      rw [raises_andFrames]
      refine cancel_calm (poolless.tunes ?_) c _
      exact Tunes.setClient _ c _ rfl rfl rfl rfl (Or.inl rfl) (Or.inl rfl)
  | agentRedirect a contextUri topLevel c context =>
      obtain ⟨reason, _, faults⟩ | ⟨response, r, _, _, acts⟩ :=
        code_agentRedirect w a contextUri topLevel c context
      · rw [faults]
        rfl
      · rw [acts]
        rfl
  | cancelReturn p key ticket generation =>
      change raises (w.cancelReturn p key ticket generation) = false
      unfold cancelReturn
      rw [poolless.lists]
      rfl
  | callback _ | fire _ | agentResponse _ _ _ _ | continued _ =>
      rfl

/-- All calls and events but those that are refused to the application. -/
theorem accept_calm
    (poolless : Poolless w)
    {input : Input}
    {top : Option Frame}
    {outcome : Step}
    (plain : mayRefuse input = false)
    (accepted : accept input top w = some outcome) :
    raises outcome = false := by
  cases input with
  | clientRequest _ _ | poolRequest _ _ | agentRequest _ _ _ _
  | sendChunk _ _ | sendFinalChunk _ _ =>
      cases plain
  | edit r fields =>
      simp only [accept] at accepted
      split at accepted <;> cases accepted
      rfl
  | listen r =>
      cases top <;> simp only [accept, reduceCtorEq] at accepted
      cases accepted
      rfl
  | newClient loop | maxConnections p value =>
      cases accepted
      rfl
  | cancel r error =>
      cases accepted
      exact requestCancel_calm poolless r error
  | clientCancel c error =>
      cases accepted
      exact cancel_calm poolless c error
  | advance loop milliseconds =>
      cases top <;> simp only [accept, reduceCtorEq] at accepted
      cases accepted
      rfl
  | onConnect c error =>
      cases top <;> simp only [accept, reduceCtorEq] at accepted
      split at accepted
      · cases error with
        | none =>
            cases accepted
            rfl
        | some error =>
            cases accepted
            refine cancel_calm (poolless.tunes ?_) c _
            exact Tunes.setTcp w c _ (Or.inr rfl)
      · cases accepted
  | onWrite c error =>
      cases top <;> simp only [accept, reduceCtorEq] at accepted
      split at accepted
      · cases error with
        | none =>
            cases accepted
            rfl
        | some error =>
            cases accepted
            refine cancel_calm (poolless.tunes ?_) c _
            exact Tunes.setTcp w c _ (Or.inl rfl)
      · cases accepted
  | onRead c buf =>
      cases top <;> simp only [accept, reduceCtorEq] at accepted
      split at accepted <;> cases accepted
      rfl
  | onReadError c error =>
      cases top <;> simp only [accept, reduceCtorEq] at accepted
      split at accepted <;> cases accepted
      exact cancel_calm poolless c _
  | onEof c error response =>
      cases top <;> simp only [accept, reduceCtorEq] at accepted
      split at accepted <;> cases accepted
      refine onEof_calm (poolless.tunes ?_) c error response
      refine Tunes.trans ?_ (Tunes.emit _ rfl)
      exact Tunes.setTcp w c _ (Or.inl rfl)
  | onTimer r =>
      cases top <;> simp only [accept, reduceCtorEq] at accepted
      split at accepted
      · cases accepted
      · split at accepted
        · cases accepted
        · split at accepted <;> cases accepted
          exact fireTimer_calm poolless r _
  | streamData r item data =>
      cases top <;> simp only [accept, reduceCtorEq] at accepted
      split at accepted <;> cases accepted
      rfl
  | streamFinish r item error =>
      cases top <;> simp only [accept, reduceCtorEq] at accepted
      split at accepted <;> cases accepted
      refine formFileComplete_calm (poolless.tunes ?_) _ error
      exact Tunes.setRequest w r _ rfl rfl rfl rfl (.refl _)
  | checkInactivity p =>
      cases top <;> simp only [accept, reduceCtorEq] at accepted
      split at accepted <;> cases accepted
      rfl

/-- Code throws nothing where no callback does and redirects may go on. -/
theorem keepsAccounts_of_staysAlone
    {config : Config}
    {label : Label}
    (poolless : Poolless config.state)
    (stays : StaysAlone config label) :
    KeepsAccounts config label := by
  cases label with
  | ret =>
      trivial
  | throw =>
      exact stays
  | tick =>
      intro frame isTop
      have restarts : config.state.RestartsIn frame := stays frame isTop
      refine code_calm poolless ?_ ?_
      · rintro c rfl
        exact restarts
      · rintro rfl
        exact restarts
  | input input =>
      cases refusable : mayRefuse input with
      | true =>
          exact Or.inl refusable
      | false =>
          exact Or.inr fun outcome accepted =>
            accept_calm poolless refusable accepted

end Calm

/-! ## Ends without an error -/

/-- The response event that tells an end without an error is about to be fired. -/
def cleanNotice (r : Nat) (response : Response) : Frame :=
  .fire (.responseEvent r response none)

/-- An end without an error is about to be told. -/
def isCleanNotice : Frame → Bool
  | .fire (.responseEvent _ _ none) => true
  | _ => false

/-- Ends without an error are those of a finished response to a finished request. -/
def Clean (w : World) (step : Step) : Prop :=
  ∀ next frames,
    step = .next next frames →
    ∀ r response,
      cleanNotice r response ∈ frames →
      response.isDone = true ∧ (w.requests r).transferCompleted = true

/-- No end without an error is told. -/
def Unclean (step : Step) : Prop :=
  ∀ next frames,
    step = .next next frames → ∀ frame ∈ frames, isCleanNotice frame = false

section Clean

variable {w : World} {step : Step}

theorem Unclean.clean (unclean : Unclean step) : Clean w step := by
  intro next frames executed r response member
  cases unclean next frames executed _ member

theorem Unclean.goes
    {next : World}
    {frames : List Frame}
    (silent : ∀ frame ∈ frames, isCleanNotice frame = false) :
    Unclean (.next next frames) := by
  rintro _ _ ⟨⟩
  exact silent

theorem Unclean.fault {reason : Fault} : Unclean (.fault reason) := by
  rintro _ _ ⟨⟩

theorem Unclean.raise {next : World} : Unclean (.raise next) := by
  rintro _ _ ⟨⟩

theorem Unclean.andFrames
    {frames : List Frame}
    (unclean : Unclean step)
    (silent : ∀ frame ∈ frames, isCleanNotice frame = false) :
    Unclean (ClientSide.andFrames step frames) := by
  intro next all executed frame member
  obtain ⟨first, isNext, rfl⟩ := andFrames_next executed
  exact (List.mem_append.mp member).elim (unclean next first isNext frame)
    (silent frame)

theorem Unclean.before
    {straight : Straight}
    {second : World → Step}
    (rest : ∀ middle, Unclean (second middle)) :
    Unclean (straight.before second) := by
  intro next frames executed
  obtain ⟨middle, _, goesOn⟩ := Straight.before_next executed
  exact rest middle next frames goesOn

theorem finishAndNotify_unclean
    (w : World)
    (r : Nat)
    (response : Option Response)
    (error : ErrorCode) :
    Unclean (w.finishAndNotify r response (some error)) :=
  .goes (by simp [isCleanNotice])

/-- What `finish_request` is given an error for ends with an error. -/
theorem finishRequest_unclean (w : World) (c : Nat) (error : ErrorCode) :
    Unclean (w.finishRequest c (some error)) := by
  unfold finishRequest
  split
  · exact .fault
  · dsimp only [finishError, Option.or]
    split
    · exact .fault
    · exact .before fun _ => finishAndNotify_unclean _ _ _ error

theorem cancel_unclean (w : World) (c : Nat) (error : ErrorCode) :
    Unclean (w.cancel c (some error)) := by
  unfold cancel
  dsimp only
  split
  · exact .goes (by simp)
  · exact finishRequest_unclean _ c error

theorem cancelRequest_unclean (w : World) (p r : Nat) (error : ErrorCode) :
    Unclean (w.cancelRequest p r (some error)) := by
  unfold cancelRequest
  dsimp only
  split
  · exact .fault
  · split
    · exact .fault
    · exact (finishAndNotify_unclean _ r none error).andFrames
        (by simp [isCleanNotice])

/-- `finish_request` without an error tells one only if the transfer is incomplete. -/
theorem finishRequest_clean
    {c : Nat}
    (isDone :
      ∀ response ∈ (w.clients c).response, response.isDone = true) :
    Clean w (w.finishRequest c none) := by
  unfold finishRequest
  split
  · exact Unclean.fault.clean
  · rename_i s active
    cases transferred : (w.requests s).transferCompleted with
    | false =>
        have aborted :
            w.finishError s none = some (.http .transferAborted) := by
          simp [finishError, transferred]
        dsimp only
        rw [aborted]
        split
        · exact Unclean.fault.clean
        · exact (Unclean.before fun _ =>
            finishAndNotify_unclean _ s _ _).clean
    | true =>
        have noError : w.finishError s none = none := by
          simp [finishError, transferred]
        dsimp only
        rw [noError]
        split
        · exact Unclean.fault.clean
        · rename_i present
          intro next frames executed r response member
          obtain ⟨middle, _, notified⟩ := Straight.before_next executed
          cases notified
          simp only [cleanNotice, List.mem_cons, Frame.fire.injEq, reduceCtorEq,
            Callback.responseEvent.injEq, List.not_mem_nil, or_false, false_or,
            and_true] at member
          obtain ⟨rfl, rfl⟩ := member
          cases known : (w.clients c).response with
          | none =>
              simp [known] at present
          | some response =>
              exact ⟨isDone response known, transferred⟩

theorem analyzeRequest_clean
    {c : Nat}
    (isDone :
      ∀ response ∈ (w.clients c).response, response.isDone = true) :
    Clean w (w.analyzeRequest c) := by
  unfold analyzeRequest
  dsimp only
  split
  · exact Unclean.fault.clean
  · exact Unclean.fault.clean
  · split
    · exact (Unclean.goes (by simp [isCleanNotice])).clean
    · split
      · split
        · exact (cancel_unclean _ c _).clean
        · split
          · exact (cancel_unclean _ c _).clean
          · split
            · exact (cancel_unclean _ c _).clean
            · exact (Unclean.goes (by simp [isCleanNotice])).clean
      · exact finishRequest_clean isDone

theorem receivePart_unclean (w : World) (c : Nat) (response : Response) :
    Unclean (w.receivePart c response) := by
  unfold receivePart
  split
  · exact .goes (by simp)
  · split
    · exact .fault
    · split
      · exact .goes (by simp)
      · exact .goes (by simp [isCleanNotice])

theorem Clean.andFrames
    {frames : List Frame}
    (clean : Clean w step)
    (silent : ∀ frame ∈ frames, isCleanNotice frame = false) :
    Clean w (ClientSide.andFrames step frames) := by
  intro next all executed r response member
  obtain ⟨first, isNext, rfl⟩ := andFrames_next executed
  rcases List.mem_append.mp member with early | late
  · exact clean next first isNext r response early
  · cases silent _ late

theorem onReadLoop_clean (w : World) (c buffer : Nat) (buf : List Parsed) :
    Clean w (w.onReadLoop c buffer buf) := by
  cases buf with
  | nil =>
      exact (Unclean.goes (by simp)).clean
  | cons result rest =>
      simp only [onReadLoop]
      split
      · exact (Unclean.goes (by simp)).clean
      · rename_i context _
        cases result with
        | error error _ =>
            exact (cancel_unclean _ c error).clean
        | headers =>
            exact (Unclean.goes (by simp)).clean
        | body response =>
            exact (receivePart_unclean _ c _).clean
        | done response =>
            refine Clean.andFrames ?_ (by simp [isCleanNotice])
            have same :
                (w.parseShift c buffer context (.done response)).requests =
                  w.requests := rfl
            unfold Clean
            rw [← same]
            refine analyzeRequest_clean fun shown isShown => ?_
            simp only [World.parseShift, World.setClient, emit,
              Function.update_self, Option.mem_def, Option.some.injEq] at isShown
            subst isShown
            rfl

theorem onEof_clean
    (w : World)
    (c : Nat)
    (error : Option ErrorCode)
    (response : Response) :
    Clean w (w.onEof c error response) := by
  unfold onEof
  dsimp only
  split
  · exact (Unclean.goes (by simp)).clean
  · exact Unclean.fault.clean
  · split
    · exact (cancel_unclean _ c _).clean
    · refine analyzeRequest_clean (w := World.setClient _ c _)
        fun shown isShown => ?_
      simp only [World.setClient, Function.update_self, Option.mem_def,
        Option.some.injEq] at isShown
      subst isShown
      rfl

theorem formFileComplete_unclean
    (w : World)
    (c : Nat)
    (error : Option ErrorCode) :
    Unclean (w.formFileComplete c error) := by
  unfold formFileComplete
  split
  · exact finishRequest_unclean w c _
  · exact .before fun _ => .goes (by simp)

theorem code_clean (w : World) (frame : Frame) : Clean w (code frame w) := by
  cases frame with
  | onRead c buffer buf =>
      exact onReadLoop_clean w c buffer buf
  | fire callback =>
      refine (Unclean.goes fun frame member => ?_).clean
      obtain ⟨listener, _, rfl⟩ := List.mem_map.mp member
      cases listener <;> cases callback <;> rfl
  | agentRedirect a contextUri topLevel c context =>
      obtain ⟨reason, _, faults⟩ | ⟨response, r, _, _, acts⟩ :=
        code_agentRedirect w a contextUri topLevel c context
      · rw [faults]
        exact Unclean.fault.clean
      · rw [acts]
        exact (Unclean.goes (by simp)).clean
  | redirected c =>
      refine Unclean.clean ?_
      change Unclean (w.redirected c)
      unfold redirected
      dsimp only
      split
      · exact .goes (by simp)
      · split
        · exact .fault
        · exact .fault
        · exact .before fun _ => .goes (by simp)
  | redirectCatch c =>
      exact ((cancel_unclean _ c _).andFrames (by simp [isCleanNotice])).clean
  | cancelReturn p key ticket generation =>
      refine Unclean.clean ?_
      change Unclean (w.cancelReturn p key ticket generation)
      unfold cancelReturn
      dsimp only
      split
      · exact .fault
      · split
        · exact .goes (by simp)
        · exact .fault
  | rethrow =>
      exact Unclean.raise.clean
  | callback _ | agentResponse _ _ _ _ | continued _ =>
      exact (Unclean.goes (by simp)).clean

theorem requestSend_unclean
    (w : World)
    (r : Nat)
    {send : Nat → Step}
    (sends : ∀ c, Unclean (send c)) :
    Unclean (w.requestSend r send) := by
  unfold requestSend
  dsimp only
  split
  · exact .raise
  · split
    · exact .raise
    · split
      · exact sends _
      · exact .fault

theorem acceptedOn_unclean
    (straight : Straight)
    (pool : Option Nat)
    (loop r : Nat) :
    Unclean (straight.before (acceptedOn pool loop r)) :=
  .before fun _ => .goes (by simp)

theorem fireTimer_unclean (w : World) (r : Nat) (timer : Timer) :
    Unclean (w.fireTimer r timer) := by
  unfold fireTimer
  dsimp only
  split
  · unfold onTimer
    dsimp only
    split
    · exact cancel_unclean _ _ _
    · exact cancelRequest_unclean _ _ r _
    · exact .goes (by simp)
  · exact .goes (by simp)

/-- No end without an error is told by a call that gives no empty error. -/
theorem accept_clean
    {input : Input}
    {top : Option Frame}
    {outcome : Step}
    (errs :
      ∀ r c,
        input ≠ .cancel r none ∧ input ≠ .clientCancel c none)
    (accepted : accept input top w = some outcome) :
    Clean w outcome := by
  cases input with
  | edit r fields =>
      simp only [accept] at accepted
      split at accepted <;> cases accepted
      exact (Unclean.goes (by simp)).clean
  | listen r =>
      cases top <;> simp only [accept, reduceCtorEq] at accepted
      cases accepted
      exact (Unclean.goes (by simp)).clean
  | newClient loop | maxConnections p value =>
      cases accepted
      exact (Unclean.goes (by simp)).clean
  | clientRequest c r =>
      simp only [accept] at accepted
      split at accepted <;> cases accepted
      exact (acceptedOn_unclean _ _ _ _).clean
  | poolRequest p r | agentRequest a r contextUri topLevel =>
      cases accepted
      exact (acceptedOn_unclean _ _ _ _).clean
  | cancel r error =>
      cases accepted
      cases error with
      | none =>
          exact ((errs r 0).1 rfl).elim
      | some error =>
          refine Unclean.clean ?_
          unfold requestCancel
          dsimp only
          split
          · exact cancel_unclean w _ error
          · exact cancelRequest_unclean w _ r error
          · exact .goes (by simp)
  | clientCancel c error =>
      cases accepted
      cases error with
      | none => exact ((errs 0 c).2 rfl).elim
      | some error => exact (cancel_unclean w c error).clean
  | sendChunk r data =>
      cases accepted
      refine (requestSend_unclean w r fun c => ?_).clean
      split <;> exact .goes (by simp)
  | sendFinalChunk r data =>
      cases accepted
      exact (requestSend_unclean w r fun c => .goes (by simp)).clean
  | advance loop milliseconds =>
      cases top <;> simp only [accept, reduceCtorEq] at accepted
      cases accepted
      exact (Unclean.goes (by simp)).clean
  | onConnect c error | onWrite c error =>
      cases top <;> simp only [accept, reduceCtorEq] at accepted
      split at accepted
      · cases error with
        | none =>
            cases accepted
            exact (Unclean.goes (by simp)).clean
        | some error =>
            cases accepted
            exact (cancel_unclean _ c _).clean
      · cases accepted
  | onRead c buf =>
      cases top <;> simp only [accept, reduceCtorEq] at accepted
      split at accepted <;> cases accepted
      exact (Unclean.goes (by simp [isCleanNotice])).clean
  | onReadError c error =>
      cases top <;> simp only [accept, reduceCtorEq] at accepted
      split at accepted <;> cases accepted
      exact (cancel_unclean w c _).clean
  | onEof c error response =>
      cases top <;> simp only [accept, reduceCtorEq] at accepted
      split at accepted <;> cases accepted
      exact onEof_clean (World.emit (World.setTcp w c _) _) c error response
  | onTimer r =>
      cases top <;> simp only [accept, reduceCtorEq] at accepted
      split at accepted
      · cases accepted
      · split at accepted
        · cases accepted
        · split at accepted <;> cases accepted
          exact (fireTimer_unclean w r _).clean
  | streamData r item data =>
      cases top <;> simp only [accept, reduceCtorEq] at accepted
      split at accepted <;> cases accepted
      exact (Unclean.goes (by simp)).clean
  | streamFinish r item error =>
      cases top <;> simp only [accept, reduceCtorEq] at accepted
      split at accepted <;> cases accepted
      exact (formFileComplete_unclean _ _ error).clean
  | checkInactivity p =>
      cases top <;> simp only [accept, reduceCtorEq] at accepted
      split at accepted <;> cases accepted
      exact (Unclean.goes (by simp)).clean

end Clean

/-! ## Runs -/

section Steps

variable {w : World}

theorem code_alone (alone : Alone w) (frame : Frame) :
    Leads (code frame w) Alone := by
  cases plain : isPlainFrame frame with
  | true =>
      exact (code_act w frame plain).leads.imp fun _ act => alone.act act
  | false =>
      cases frame with
      | onRead c buffer buf =>
          cases buf with
          | nil =>
              exact Leads.next alone
          | cons result rest =>
              refine (onReadLoop_act w c buffer result rest).leads.imp ?_
              rintro next (⟨_, tunes⟩ | ⟨context, _, act⟩)
              · exact alone.tunes tunes
              · exact (alone.parseShift c buffer context result).act act
      | cancelReturn p key ticket generation =>
          change Leads (w.cancelReturn p key ticket generation) Alone
          unfold cancelReturn
          rw [alone.lists]
          exact Leads.fault
      | _ =>
          cases plain

/-- A request that the client takes is linked, and one that it refuses is not. -/
theorem clientRequest_alone
    (alone : Alone w)
    (c r : Nat)
    (setUp : ¬ w.LacksSetup c r) :
    (w.clientRequest c r).Post Alone Alone fun _ => True := by
  have started := clientRequest_post w c r
  rcases clientRequest_cases w c r with
    ⟨_, exception, refused⟩ | ⟨joins, refuses, _⟩ | ⟨_, _, never⟩
  · rw [refused]
    exact alone.tunes (.emit w rfl)
  · exact (setUp ⟨joins, refuses⟩).elim
  · cases outcome : w.clientRequest c r with
    | raise next =>
        exact (never next outcome).elim
    | fault reason =>
        trivial
    | ok next =>
        rw [outcome] at started
        exact .started alone.toPoolless (fun s d _ => alone.back s d) started

/-- Calls and events without pools, for whose requests connections can be set up. -/
theorem accept_alone
    (alone : Alone w)
    (introduced : Introduced w)
    {input : Input}
    {stack : List Frame}
    {outcome : Step}
    (stays : StaysAlone ⟨w, stack, none⟩ (.input input))
    (accepted : accept input stack.head? w = some outcome) :
    outcome.Holds Alone (fun _ => True) := by
  have calm :
      ∀ {step : Step},
        raises step = false → Leads step Alone → step.Holds Alone fun _ => True := by
    intro step never leads
    cases step with
    | next next frames => exact leads next frames rfl
    | raise next => cases never
    | fault reason => trivial
  cases plain : isPlainInput input with
  | true =>
      cases refusable : mayRefuse input with
      | false =>
          exact calm (accept_calm alone.toPoolless refusable accepted)
            ((accept_act plain accepted).leads.imp fun _ act => alone.act act)
      | true =>
          cases input with
          | sendChunk r data =>
              cases accepted
              exact ((sendChunk_tunes w r data).imp (fun _ => alone.tunes)
                fun _ => alone.tunes).holds
          | sendFinalChunk r data =>
              cases accepted
              exact ((sendFinalChunk_tunes w r data).imp (fun _ => alone.tunes)
                fun _ => alone.tunes).holds
          | _ =>
              simp [isPlainInput, mayRefuse] at plain refusable
  | false =>
      cases input with
      | edit r fields =>
          simp only [accept] at accepted
          split at accepted <;> cases accepted
          exact alone.setLibrary r _ rfl rfl
      | newClient loop =>
          cases accepted
          refine alone.newClient loop ?_
          cases busy : (w.clients w.nextClient).request with
          | none => rfl
          | some r => exact (Nat.lt_irrefl _ (introduced _ r busy)).elim
      | clientRequest c r =>
          simp only [accept] at accepted
          split at accepted <;> cases accepted
          exact Straight.Post.before (clientRequest_alone alone c r stays)
            fun next isAlone =>
              isAlone.congr (fun _ => rfl) (fun _ => rfl) (fun _ _ => rfl)
                fun _ => ⟨rfl, rfl⟩
      | poolRequest p r =>
          exact stays.elim
      | agentRequest a r contextUri topLevel =>
          exact stays.elim
      | maxConnections p value =>
          cases accepted
          refine alone.congr (fun _ => rfl) (fun _ => rfl) (fun q key => ?_)
            fun _ => ⟨rfl, rfl⟩
          by_cases same : q = p <;> simp [same]
      | advance loop milliseconds =>
          cases top : stack.head? <;>
            simp only [top, accept, reduceCtorEq] at accepted
          cases accepted
          exact alone.congr (fun _ => rfl) (fun _ => rfl) (fun _ _ => rfl)
            fun _ => ⟨rfl, rfl⟩
      | onRead c buf =>
          cases top : stack.head? <;>
            simp only [top, accept, reduceCtorEq] at accepted
          split at accepted <;> cases accepted
          exact alone.congr (fun _ => rfl) (fun _ => rfl) (fun _ _ => rfl)
            fun _ => ⟨rfl, rfl⟩
      | onTimer r =>
          refine calm (accept_calm alone.toPoolless rfl accepted) ?_
          cases top : stack.head? <;>
            simp only [top, accept, reduceCtorEq] at accepted
          split at accepted
          · cases accepted
          · split at accepted
            · cases accepted
            · split at accepted <;> cases accepted
              unfold fireTimer
              dsimp only
              split
              · refine (onTimer_act _ r).leads.imp fun _ act => Alone.act ?_ act
                exact alone.setLibrary r _ rfl rfl
              · exact Leads.next (alone.setLibrary r _ rfl rfl)
      | checkInactivity p =>
          cases top : stack.head? <;>
            simp only [top, accept, reduceCtorEq] at accepted
          split at accepted <;> cases accepted
          refine alone.congr (fun _ => rfl) (fun _ => rfl) (fun q key => ?_)
            fun _ => ⟨rfl, rfl⟩
          by_cases same : q = p <;>
            simp [checkInactivity, same, alone.lists]
      | _ =>
          cases plain

end Steps

/-! ## The property -/

/--
Each accepted submission of the request has been answered once, or the request is
active, with a client and a link back to it.
-/
structure SettledOnce (w : World) (r : Nat) : Prop where
  told :
    w.trace.countP (isAcceptance r) =
      w.trace.countP (isAnswer r) +
        if (w.requests r).client.isSome then 1 else 0
  linked : ∀ c, (w.requests r).client = some c ↔ (w.clients c).request = some r

/-- An end without an error is that of a finished response to a finished request. -/
def TellsCleanly (before after : Config) : Prop :=
  ∀ r response,
    before.stack.count (cleanNotice r response) <
      after.stack.count (cleanNotice r response) →
    response.isDone = true ∧
      (before.state.requests r).transferCompleted = true

/-- Whenever nothing runs everything is settled, and ends without an error are clean. -/
structure CompletesOnce (w : World) (labels : List Label) (final : Config) : Prop where
  settled : final.stack = [] → ∀ r, SettledOnce final.state r
  clean :
    ∀ first label rest before after,
      labels = first ++ label :: rest →
      run? w first = some before →
      machine.step? before label = some after →
      TellsCleanly before after
  answered :
    ∀ r response,
      .fired (.responseEvent r response none) ∈ final.state.trace →
      response.isDone = true

/-- Links and accounts are in order, and what is told without an error is finished. -/
structure Steady (config : Config) : Prop where
  alone : Alone config.state
  audited : Audited config.state config.stack
  pending :
    ∀ r response,
      cleanNotice r response ∈ config.stack →
      response.isDone = true
  answered :
    ∀ r response,
      .fired (.responseEvent r response none) ∈ config.state.trace →
      response.isDone = true

section Steady

variable {config next : Config} {label : Label}

/-- The code goes on, as nothing is thrown. -/
theorem outcome_of_tick
    (keeps : KeepsAccounts config .tick)
    {frame : Frame}
    {rest : List Frame}
    (shape : config.stack = frame :: rest) :
    raises (code frame config.state) = false :=
  keeps frame (by simp [shape])

theorem alone_of_step
    (steady : Steady config)
    (stays : StaysAlone config label)
    (stepped : machine.step? config label = some next) :
    Alone next.state := by
  have keeps := keepsAccounts_of_staysAlone steady.alone.toPoolless stays
  obtain ⟨w, stack, fault⟩ := config
  obtain rfl : fault = none := CallMachine.Machine.noFault_of_step? stepped
  cases CallMachine.Machine.steps_of_step? stepped with
  | @tick frame rest shape _ =>
      have calm := outcome_of_tick keeps shape
      have leads := code_alone steady.alone frame
      change Alone (machine.resume _ rest (code frame w)).state
      cases outcome : code frame w with
      | next after frames => exact leads after frames outcome
      | raise after =>
          rw [outcome] at calm
          cases calm
      | fault reason => exact steady.alone
  | ret _ _ => exact steady.alone
  | throw _ _ => exact stays.elim
  | @input called outcome _ accepted =>
      have holds :=
        accept_alone steady.alone steady.audited.introduced stays accepted
      cases outcome with
      | next after frames | raise after => exact holds
      | fault reason => exact steady.alone

theorem mem_of_count
    {frame : Frame}
    {frames below stack : List Frame}
    (more : stack.count frame < (frames ++ below).count frame)
    (most : below.count frame ≤ stack.count frame) :
    frame ∈ frames := by
  rw [List.count_append] at more
  exact List.count_pos_iff.mp (by omega)

theorem tellsCleanly_of_step
    (poolless : Poolless config.state)
    (stays : StaysAlone config label)
    (stepped : machine.step? config label = some next) :
    TellsCleanly config next := by
  have keeps := keepsAccounts_of_staysAlone poolless stays
  intro r response more
  cases CallMachine.Machine.steps_of_step? stepped with
  | @tick frame rest shape _ =>
      have calm := outcome_of_tick keeps shape
      have least : rest.count (cleanNotice r response) ≤
          config.stack.count (cleanNotice r response) := by
        rw [shape]
        exact List.count_le_count_cons
      cases outcome : code frame config.state with
      | next after frames =>
          have resumed :
              (machine.resume config rest (machine.code frame config.state)).stack =
                frames ++ rest := by
            change (machine.resume config rest (code frame config.state)).stack = _
            rw [outcome]
            rfl
          rw [resumed] at more
          exact code_clean config.state frame after frames outcome r response
            (mem_of_count more least)
      | raise after =>
          rw [outcome] at calm
          cases calm
      | fault reason =>
          have resumed :
              (machine.resume config rest (machine.code frame config.state)).stack =
                config.stack := by
            change (machine.resume config rest (code frame config.state)).stack = _
            rw [outcome]
            rfl
          rw [resumed] at more
          exact (Nat.lt_irrefl _ more).elim
  | @ret frame rest shape _ =>
      have least : rest.count (cleanNotice r response) ≤
          config.stack.count (cleanNotice r response) := by
        rw [shape]
        exact List.count_le_count_cons
      exact (Nat.lt_irrefl _ (more.trans_le least)).elim
  | throw _ _ => exact stays.elim
  | @input called outcome boundary accepted =>
      cases outcome with
      | next after frames =>
          refine accept_clean (fun s c => ⟨?_, ?_⟩) accepted after frames rfl r
            response (mem_of_count more le_rfl)
          · rintro rfl
            exact stays rfl
          · rintro rfl
            exact stays rfl
      | raise after =>
          simp only [CallMachine.Machine.resume,
            CallMachine.Machine.unwind_of_atBoundary boundary] at more
          exact (Nat.lt_irrefl _ more).elim
      | fault reason =>
          exact (Nat.lt_irrefl _ more).elim

/-- A choice that answers nothing adds no response event. -/
theorem mem_of_unanswered
    (r : Nat)
    (response : Response)
    (error : Option ErrorCode)
    (stepped : machine.step? config label = some next)
    (unanswered :
      next.state.trace.countP (isAnswer r) = config.state.trace.countP (isAnswer r))
    (fired : .fired (.responseEvent r response error) ∈ next.state.trace) :
    .fired (.responseEvent r response error) ∈ config.state.trace := by
  obtain ⟨events, trace⟩ := trace_grows stepped
  rw [trace, List.countP_append, Nat.add_eq_left, List.countP_eq_zero] at unanswered
  rw [trace] at fired
  refine (List.mem_append.mp fired).resolve_right fun isNew => ?_
  exact unanswered _ isNew (by simp [isAnswer])

/-- An answer without an error is given by firing what was about to be fired. -/
theorem fired_of_step
    {r : Nat}
    {response : Response}
    (keeps : KeepsAccounts config label)
    (stepped : machine.step? config label = some next)
    (fired : .fired (.responseEvent r response none) ∈ next.state.trace) :
    .fired (.responseEvent r response none) ∈ config.state.trace ∨
      cleanNotice r response ∈ config.stack := by
  have unanswered := mem_of_unanswered r response none stepped
  cases CallMachine.Machine.steps_of_step? stepped with
  | @tick frame rest shape _ =>
      by_cases fires : ∃ callback, frame = .fire callback
      · obtain ⟨callback, rfl⟩ := fires
        have added : .fired (.responseEvent r response none) ∈
            config.state.trace ++ [.fired callback] := fired
        rcases List.mem_append.mp added with old | isNew
        · exact Or.inl old
        · have same := List.mem_singleton.mp isNew
          cases same
          rw [shape]
          exact Or.inr List.mem_cons_self
      · refine Or.inl (unanswered ?_ fired)
        have quiet : ∀ callback, frame ≠ .fire callback :=
          fun callback isFire => fires ⟨callback, isFire⟩
        have calm := outcome_of_tick keeps shape
        have told := code_told config.state frame quiet
        change (machine.resume config rest (code frame config.state)).state.trace.countP _ = _
        cases outcome : code frame config.state with
        | next after frames => exact (told after frames outcome).answered r
        | raise after =>
            rw [outcome] at calm
            cases calm
        | fault reason => rfl
  | ret _ _ => exact Or.inl fired
  | throw _ _ => exact keeps.elim
  | @input called outcome boundary accepted =>
      refine Or.inl (unanswered ?_ fired)
      cases outcome with
      | next after frames =>
          exact (accept_told accepted after frames rfl).answered r
      | raise after =>
          rcases keeps with mayBe | never
          · exact (refused_hushed mayBe accepted).answered r
          · cases never _ accepted
      | fault reason => rfl

theorem Steady.step
    (steady : Steady config)
    (stays : StaysAlone config label)
    (stepped : machine.step? config label = some next) :
    Steady next := by
  have poolless := steady.alone.toPoolless
  have keeps := keepsAccounts_of_staysAlone poolless stays
  refine ⟨alone_of_step steady stays stepped,
    preserves_audited.step config label next steady.audited keeps stepped,
    fun r response isPending => ?_, fun r response fired => ?_⟩
  · by_cases more :
        config.stack.count (cleanNotice r response) <
          next.stack.count (cleanNotice r response)
    · exact (tellsCleanly_of_step poolless stays stepped r response more).1
    · have positive := List.count_pos_iff.mpr isPending
      exact steady.pending r response (List.count_pos_iff.mp (by omega))
  · exact (fired_of_step keeps stepped fired).elim (steady.answered r response)
      (steady.pending r response)

theorem steady_of_fresh {w : World} (fresh : Fresh w) : Steady (start w) where
  alone :=
    { client := by simp [start, fresh.clients]
      lists := fresh.pools
      request := by simp [start, fresh.requests]
      back := by simp [start, fresh.requests] }
  audited := audited_of_fresh fresh
  pending := by simp [start]
  answered := by simp [start, fresh.trace]

theorem steady_of_run
    {w : World}
    {labels : List Label}
    {final : Config}
    (fresh : Fresh w)
    (guarded : machine.Guarded StaysAlone (start w) labels)
    (ran : run? w labels = some final) :
    Steady final := by
  have preserved :
      ∀ config label next,
        Steady config →
        StaysAlone config label →
        machine.step? config label = some next →
        Steady next :=
    fun _ _ _ steady stays stepped => steady.step stays stepped
  exact CallMachine.Machine.run?_invariant preserved (steady_of_fresh fresh) guarded
    ran

/-- Without pools a submission is kept by the client of its request, if there is one. -/
theorem encard_keepers
    (alone : Alone config.state)
    (linked : Linked config.state)
    (r : Nat) :
    {keeper | Holds config.state [] r keeper}.encard =
      if (config.state.requests r).client.isSome then 1 else 0 := by
  have noPlace :
      ∀ p key ticket, ¬ Holds config.state [] r (.place p key ticket) := by
    intro p key ticket
    simp [Holds, queueOf, alone.lists]
  cases known : (config.state.requests r).client with
  | none =>
      rw [Option.isSome_none, if_neg (by simp), Set.encard_eq_zero,
        Set.eq_empty_iff_forall_notMem]
      intro keeper holds
      cases keeper with
      | client c =>
          have isLinked := linked c r holds
          rw [known] at isLinked
          cases isLinked
      | place p key ticket => exact noPlace p key ticket holds
  | some c =>
      rw [Option.isSome_some, if_pos rfl, Set.encard_eq_one]
      refine ⟨.client c, Set.eq_singleton_iff_unique_mem.mpr
        ⟨alone.back r c known, fun keeper holds => ?_⟩⟩
      cases keeper with
      | client d =>
          have isLinked := linked d r holds
          rw [known] at isLinked
          rw [Option.some.inj isLinked]
      | place p key ticket => exact (noPlace p key ticket holds).elim

end Steady

/--
In every run without pools in which redirected requests can be started again: whenever
nothing runs, each accepted submission has been answered once or its request is
active; and ends without an error are those of finished responses to requests that
have been transferred.
-/
theorem completesOnce_of_staysAlone
    (w : World)
    (labels : List Label)
    (final : Config)
    (fresh : Fresh w)
    (guarded : machine.Guarded StaysAlone (start w) labels)
    (ran : run? w labels = some final) :
    CompletesOnce w labels final := by
  have steady : Steady final := steady_of_run fresh guarded ran
  refine ⟨fun quiet r => ?_, fun first label rest before after shape reached stepped => ?_,
    steady.answered⟩
  · have accounts : machine.Guarded KeepsAccounts (start w) labels := by
      refine (CallMachine.Machine.Guarded.strengthen
        (fun _ _ _ steady stays stepped => Steady.step steady stays stepped)
        (fun _ _ steady stays =>
          keepsAccounts_of_staysAlone steady.alone.toPoolless stays)
        (steady_of_fresh fresh) guarded).imp ?_
      exact fun _ _ both => both.2
    have announced := announced_of_run fresh accounts ran r
    rw [quiet, List.countP_nil, Nat.add_zero] at announced
    have audited := steady.audited
    rw [quiet] at audited
    refine ⟨?_, fun c => ⟨steady.alone.back r c, audited.linked c r⟩⟩
    rcases audited.books with (twice | ⟨p, key, ticket, member, _⟩) | booked
    · exact (twice List.nodup_nil).elim
    · cases member
    · have balance := booked r
      simp only [credit, debit, List.count_nil, Nat.add_zero] at balance
      have counted :=
        encard_keepers steady.alone audited.linked r
      have total :
          (final.state.trace.countP (isAcceptance r) : ℕ∞) =
            final.state.trace.countP (isAnswer r) +
              {keeper | Holds final.state [] r keeper}.encard := by
        rw [announced]
        exact balance
      rw [counted] at total
      split_ifs at total ⊢ <;> exact_mod_cast total
  · subst shape
    have here : Steady before :=
      steady_of_run fresh guarded.front reached
    exact tellsCleanly_of_step here.alone.toPoolless (guarded.next reached) stepped

/-- A request is redirected to another host, and answered there. -/
def redirectedStandalone : List Label :=
  [.input (.edit 0 { uri := some { scheme := "http", host := "here" } }),
    .input (.newClient 0), .input (.clientRequest 0 0),
    .input (.onConnect 0 none),
    .input (.onRead 0
      [.done
        { code := 302
          location := some { scheme := "http", host := "there" } }]),
    .tick, .tick, .ret, .tick, .tick,
    .input (.onConnect 0 none), .input (.onRead 0 [.done { code := 200 }]),
    .tick, .tick, .ret, .tick, .ret, .tick]

theorem completesOnce_redirectedStandalone :
    ∃ final,
      run? (initial {}) redirectedStandalone = some final ∧
        CompletesOnce (initial {}) redirectedStandalone final :=
  ⟨_, rfl,
    completesOnce_of_staysAlone (initial {}) redirectedStandalone _
      (fresh_initial {}) (by decide +kernel) rfl⟩

/-- The redirect callback takes the host out of the new uri. -/
def redirectedNowhere : List Label :=
  [.input (.edit 0 { uri := some { scheme := "http", host := "here" } }),
    .input (.newClient 0), .input (.clientRequest 0 0),
    .input (.onConnect 0 none),
    .input (.onRead 0
      [.done
        { code := 302
          location := some { scheme := "http", host := "there" } }]),
    .tick, .tick, .input (.edit 0 { uri := some { scheme := "http" } }), .ret,
    .tick]

/-- No client has the request any more, and its response event was not fired. -/
theorem redirectedNowhere_not_completesOnce :
    ∃ final,
      run? (initial {}) redirectedNowhere = some final ∧
        final.stack = [] ∧ final.fault = none ∧
          ¬ CompletesOnce (initial {}) redirectedNowhere final := by
  refine ⟨_, rfl, rfl, rfl, fun completes => ?_⟩
  have told := (completes.settled rfl 0).told
  exact absurd told (by decide +kernel)

end UniEventHttp.ClientSide.World
