import Mathlib.Logic.Relation
import UniEventHttp.History
import UniEventHttp.ClientDeeds

namespace UniEventHttp.ClientSide.World

/-!
# The connections that requests are written on

A connection is opened for one request and may carry others after it.  All heads
on one connection have the network location that it was opened for.  The TLS layer
is that of the first one, and it is the one that a later request needs unless its
uri differs in being secure or an http proxy is involved.

Only `Client::request` opens connections and writes heads.  Every other piece of
code leaves the connection of a client as it is, or takes it away.
-/

/-- A connection is opened, or a head is written. -/
def isPlugging : Event → Bool
  | .opened _ _ _ _ _ _ => true
  | .wrote _ _ (.head _ _) => true
  | _ => false

/-- A request is started, a connection is opened, a head is written, or a buffer is read. -/
def isWiring : Event → Bool
  | .started _ _ => true
  | .delivered _ _ _ => true
  | .parsed _ _ _ => true
  | event => isPlugging event

/-- No request is started, no connection is opened and no buffer is read. -/
structure Abstains (w next : World) : Prop where
  config : next.config = w.config
  nextConnection : next.nextConnection = w.nextConnection
  nextBuffer : next.nextBuffer = w.nextBuffer
  plugged :
    ∀ c n,
      (next.clients c).tcp.connection = some n →
      (w.clients c).tcp.connection = some n ∧
        (next.clients c).netloc = (w.clients c).netloc
  parsing :
    ∀ c r,
      (next.clients c).parsing = some r →
      (w.clients c).parsing = some r
  trace :
    ∃ events,
      next.trace = w.trace ++ events ∧
        ∀ event ∈ events, isWiring event = false

/-- A piece of code leaves the connections alone, or `Client::request` has started a request. -/
def Link (w next : World) : Prop :=
  Abstains w next ∨ ∃ c r, Started w c r next

/-- Code that does with connections what its calls of `Client::request` do. -/
def Links : World → World → Prop :=
  Relation.ReflTransGen Link

section Abstains

variable {w next third : World}

theorem Abstains.refl (w : World) : Abstains w w :=
  ⟨rfl, rfl, rfl, fun _ _ plugged => ⟨plugged, rfl⟩, fun _ _ parsing => parsing,
    [], by simp, by simp⟩

theorem Abstains.trans
    (one : Abstains w next)
    (two : Abstains next third) :
    Abstains w third where
  config := two.config.trans one.config
  nextConnection := two.nextConnection.trans one.nextConnection
  nextBuffer := two.nextBuffer.trans one.nextBuffer
  plugged c n plugged := by
    obtain ⟨before, later⟩ := two.plugged c n plugged
    obtain ⟨first, earlier⟩ := one.plugged c n before
    exact ⟨first, later.trans earlier⟩
  parsing c r parsing := one.parsing c r (two.parsing c r parsing)
  trace := by
    obtain ⟨first, traceOne, spareOne⟩ := one.trace
    obtain ⟨second, traceTwo, spareTwo⟩ := two.trace
    refine ⟨first ++ second, by rw [traceTwo, traceOne, List.append_assoc], ?_⟩
    intro event member
    exact (List.mem_append.mp member).elim (spareOne event) (spareTwo event)

/-- Clients stay as they are, and so does the history. -/
theorem Abstains.of_same
    (config : next.config = w.config)
    (nextConnection : next.nextConnection = w.nextConnection)
    (nextBuffer : next.nextBuffer = w.nextBuffer)
    (clients : next.clients = w.clients)
    (trace : next.trace = w.trace) :
    Abstains w next :=
  ⟨config, nextConnection, nextBuffer,
    fun c n plugged => by simpa [clients] using plugged,
    fun c r parsing => by simpa [clients] using parsing,
    [], by simp [trace], by simp⟩

theorem Abstains.setRequest (w : World) (r : Nat) (request : Request) :
    Abstains w (w.setRequest r request) :=
  .of_same rfl rfl rfl rfl rfl

theorem Abstains.emit
    (w : World)
    {event : Event}
    (spare : isWiring event = false) :
    Abstains w (w.emit event) :=
  ⟨rfl, rfl, rfl, fun _ _ plugged => ⟨plugged, rfl⟩, fun _ _ parsing => parsing,
    [event], rfl, by simpa using spare⟩

/-- One client changes; its connection is the one that it had, or none. -/
theorem Abstains.setClient
    (w : World)
    (c : Nat)
    (client : Client)
    (kept :
      client.tcp.connection = none ∨
        client.tcp.connection = (w.clients c).tcp.connection ∧
          client.netloc = (w.clients c).netloc)
    (parsing :
      client.parsing = none ∨ client.parsing = (w.clients c).parsing) :
    Abstains w (w.setClient c client) := by
  refine ⟨rfl, rfl, rfl, fun d n plugged => ?_, fun d r parses => ?_, [],
    by simp [World.setClient], by simp⟩
  · by_cases same : d = c
    · subst d
      simp only [World.setClient, Function.update_self] at plugged ⊢
      rcases kept with gone | ⟨stays, netloc⟩
      · simp [gone] at plugged
      · exact ⟨stays ▸ plugged, netloc⟩
    · simpa [World.setClient, same] using plugged
  · by_cases same : d = c
    · subst d
      simp only [World.setClient, Function.update_self] at parses
      rcases parsing with none | stays
      · simp [none] at parses
      · rw [← stays, parses]
    · simpa [World.setClient, same] using parses

theorem Abstains.of_tunes (tunes : Tunes w next) : Abstains w next where
  config := tunes.config
  nextConnection := tunes.nextConnection
  nextBuffer := tunes.nextBuffer
  plugged c n plugged := by
    rcases tunes.connection c with same | gone
    · exact ⟨same ▸ plugged, tunes.netloc c⟩
    · rw [gone] at plugged
      cases plugged
  parsing c r parsing := by
    rcases tunes.parsing c with same | none
    · rw [← same, parsing]
    · rw [none] at parsing
      cases parsing
  trace := by
    obtain ⟨events, trace, minor⟩ := tunes.trace
    refine ⟨events, trace, fun event member => ?_⟩
    have isMinor := minor event member
    cases event with
    | wrote c n piece =>
        cases piece with
        | head r fields =>
            cases isMinor
        | _ =>
            rfl
    | started _ _ | opened _ _ _ _ _ _ | delivered _ _ _ | parsed _ _ _ =>
        cases isMinor
    | _ =>
        rfl

theorem Abstains.links (abstains : Abstains w next) : Links w next :=
  .single (Or.inl abstains)

theorem Links.refl (w : World) : Links w w :=
  Relation.ReflTransGen.refl

theorem Links.trans
    (one : Links w next)
    (two : Links next third) :
    Links w third :=
  Relation.ReflTransGen.trans one two

/-- What `Client::request` and sparing code keep is kept by all code. -/
theorem Links.keeps
    {invariant : World → Prop}
    (abstains :
      ∀ before after, Abstains before after → invariant before → invariant after)
    (starts :
      ∀ before c r after,
        Started before c r after → invariant before → invariant after)
    (links : Links w next)
    (holds : invariant w) :
    invariant next := by
  induction links with
  | refl =>
      exact holds
  | tail _ link kept =>
      rcases link with spared | ⟨c, r, started⟩
      · exact abstains _ _ spared kept
      · exact starts _ c r _ started kept

end Abstains

/-! ## The code -/

/-- Code links its start with every outcome. -/
def LinksTo (w : World) (step : Step) : Prop :=
  step.Holds (Links w) (fun _ => True)

section Code

variable {w middle : World}

theorem LinksTo.after
    {step : Step}
    (rest : LinksTo middle step)
    (links : Links w middle) :
    LinksTo w step := by
  cases step with
  | next next frames | raise next =>
      exact links.trans rest
  | fault reason =>
      trivial

theorem LinksTo.andFrames
    {step : Step}
    (linksTo : LinksTo w step)
    (frames : List Frame) :
    LinksTo w (ClientSide.andFrames step frames) := by
  cases step <;> exact linksTo

/-- Straight code links its start with both of its ends. -/
def PostLinks (w : World) (straight : Straight) : Prop :=
  straight.Post (Links w) (Links w) (fun _ => True)

theorem PostLinks.after
    {straight : Straight}
    (rest : PostLinks middle straight)
    (links : Links w middle) :
    PostLinks w straight :=
  Straight.Post.imp rest (fun _ later => links.trans later)
    (fun _ later => links.trans later) fun _ _ => trivial

theorem PostLinks.before
    {straight : Straight}
    {second : World → Step}
    (first : PostLinks w straight)
    (rest : ∀ next, LinksTo next (second next)) :
    LinksTo w (straight.before second) :=
  Straight.Post.before first fun next links => (rest next).after links

theorem PostLinks.andThen
    {straight : Straight}
    {second : World → Straight}
    (first : PostLinks w straight)
    (rest : ∀ next, PostLinks next (second next)) :
    PostLinks w (straight.andThen second) :=
  Straight.Post.andThen first fun next links => (rest next).after links

/-- A request that is refused may cost the client its connection. -/
theorem Abstains.of_refused
    {next : World}
    {c r : Nat}
    (refused : Refused w c r next) :
    Abstains w next where
  config := refused.config
  nextConnection := refused.nextConnection
  nextBuffer := refused.nextBuffer
  plugged d n plugged := by
    by_cases same : d = c
    · subst d
      obtain ⟨tcp, client⟩ := refused.client
      rcases refused.stream with ⟨_, stays⟩ | ⟨_, closed⟩
      · exact ⟨stays ▸ plugged, by rw [client]⟩
      · rw [closed] at plugged
        cases plugged
    · rw [refused.clients d same] at plugged
      exact ⟨plugged, by rw [refused.clients d same]⟩
  parsing d s parsing := by
    by_cases same : d = c
    · subst d
      obtain ⟨tcp, client⟩ := refused.client
      rw [client] at parsing
      exact parsing
    · rw [refused.clients d same] at parsing
      exact parsing
  trace := by
    obtain ⟨exception, trace⟩ := refused.trace
    exact ⟨_, trace, by simp [isWiring, isPlugging]⟩

theorem clientRequest_links (w : World) (c r : Nat) :
    PostLinks w (w.clientRequest c r) :=
  (clientRequest_post w c r).imp
    (fun _ started => .single (Or.inr ⟨c, r, started⟩))
    (fun _ refused => (Abstains.of_refused refused).links) fun _ _ => trivial

theorem setClient_links
    (w : World)
    (c : Nat)
    (client : Client)
    (connection : client.tcp.connection = (w.clients c).tcp.connection)
    (netloc : client.netloc = (w.clients c).netloc)
    (parsing :
      client.parsing = none ∨ client.parsing = (w.clients c).parsing) :
    Links w (w.setClient c client) :=
  (Abstains.setClient w c client (Or.inr ⟨connection, netloc⟩) parsing).links

theorem setTcp_links
    (w : World)
    (c : Nat)
    (tcp : Tcp)
    (connection :
      tcp.connection = (w.clients c).tcp.connection ∨ tcp.connection = none) :
    Links w (w.setTcp c tcp) :=
  (Abstains.of_tunes (.setTcp w c tcp connection)).links

theorem same_links
    (config : middle.config = w.config)
    (nextConnection : middle.nextConnection = w.nextConnection)
    (nextBuffer : middle.nextBuffer = w.nextBuffer)
    (clients : middle.clients = w.clients)
    (trace : middle.trace = w.trace) :
    Links w middle :=
  (Abstains.of_same config nextConnection nextBuffer clients trace).links

theorem setEntry_links
    (w : World)
    (p : Nat)
    (key : NetLoc)
    (entry : Option NetLocList) :
    Links w (w.setEntry p key entry) :=
  same_links rfl rfl rfl rfl rfl

theorem putback_links (w : World) (p c : Nat) :
    PostLinks w (w.putback p c) := by
  unfold putback
  dsimp only
  split
  · trivial
  · split
    · exact (clientRequest_links _ c _).after (setEntry_links w p _ _)
    · split
      · exact setEntry_links w p _ _
      · trivial

theorem newClient_links (w : World) (loop : Nat) (pool : Option Nat) :
    Links w (w.newClient loop pool) := by
  have made :
      Abstains w (w.setClient w.nextClient { loop := loop, pool := pool }) :=
    .setClient w _ _ (Or.inl rfl) (Or.inl rfl)
  exact made.links.trans (same_links rfl rfl rfl rfl rfl)

theorem poolStart_links
    (w : World)
    (p r : Nat)
    (key : NetLoc)
    (entry : NetLocList) :
    PostLinks w (w.poolStart p r key entry) :=
  (clientRequest_links _ _ r).after
    ((newClient_links w _ _).trans (setEntry_links _ p key _))

theorem enqueue_links
    (w : World)
    (p r : Nat)
    (key : NetLoc)
    (entry : NetLocList) :
    Links w (w.enqueue p r key entry) := by
  unfold enqueue
  dsimp only
  exact (setEntry_links w p key _).trans
    ((Abstains.setRequest _ r _).trans (Abstains.emit _ rfl)).links

theorem poolRequest_links (w : World) (p r : Nat) :
    PostLinks w (w.poolRequest p r) := by
  unfold poolRequest
  split
  · exact (Abstains.emit w rfl).links
  · have owned :
        Links w (w.setRequest r { w.requests r with pool := some p }) :=
      (Abstains.setRequest w r _).links
    dsimp only
    split
    · exact (poolStart_links _ p r _ _).after owned
    · split
      · exact (clientRequest_links _ _ r).after
          (owned.trans (setEntry_links _ p _ _))
      · split
        · exact (poolStart_links _ p r _ _).after owned
        · exact owned.trans (enqueue_links _ p r _ _)

theorem finishAndNotify_links
    (w : World)
    (r : Nat)
    (response : Option Response)
    (error : Option ErrorCode) :
    LinksTo w (w.finishAndNotify r response error) :=
  ((Abstains.setRequest w r _).trans (Abstains.emit _ rfl)).links

theorem releaseClient_links
    (w : World)
    (c r : Nat)
    (response : Option Response)
    (error : Option ErrorCode) :
    PostLinks w (w.releaseClient c r response error) := by
  obtain ⟨drops, released⟩ := releaseClient_cases w c r response error
  rw [released]
  refine PostLinks.andThen ?_ fun next => ?_
  · have kept :
        Links w (if drops = true then w.reset c else w.weak c true) := by
      split_ifs
      · exact (Abstains.of_tunes (.reset w c)).links
      · exact (Abstains.of_tunes (.weak w c true)).links
    refine PostLinks.after ?_ kept
    exact (stopForm_tunes _ c r).imp
      (fun _ tunes => (Abstains.of_tunes tunes).links)
      (fun _ never => never.elim) fun _ _ => trivial
  · have rested : Links next (next.rested c) :=
      (Abstains.of_tunes (.rested next c)).links
    split
    · exact rested
    · exact (putback_links _ _ c).after rested

theorem detached_links (w : World) (c : Nat) : Links w (w.detached c) := by
  unfold detached
  exact setClient_links w c _ rfl rfl (Or.inr rfl)

theorem finishRequest_links (w : World) (c : Nat) (error : Option ErrorCode) :
    LinksTo w (w.finishRequest c error) := by
  unfold finishRequest
  split
  · trivial
  · dsimp only
    split
    · trivial
    · exact ((releaseClient_links _ c _ _ _).before fun next =>
        finishAndNotify_links next _ _ _).after (detached_links w c)

theorem cancel_links (w : World) (c : Nat) (error : Option ErrorCode) :
    LinksTo w (w.cancel c error) := by
  unfold cancel
  dsimp only
  split
  · exact Links.refl w
  · exact (finishRequest_links _ c error).after
      (setClient_links w c _ rfl rfl (Or.inl rfl))

theorem cancelRequest_links (w : World) (p r : Nat) (error : Option ErrorCode) :
    LinksTo w (w.cancelRequest p r error) := by
  unfold cancelRequest
  dsimp only
  split
  · trivial
  · split
    · trivial
    · exact (finishAndNotify_links w r none error).andFrames _

theorem analyzeRequest_links (w : World) (c : Nat) :
    LinksTo w (w.analyzeRequest c) := by
  unfold analyzeRequest
  dsimp only
  split
  · trivial
  · trivial
  · split
    · exact Links.refl w
    · split
      · split
        · exact cancel_links w c _
        · split
          · exact (cancel_links _ c _).after (Abstains.setRequest w _ _).links
          · split
            · exact (cancel_links _ c _).after (Abstains.setRequest w _ _).links
            · change Links w (World.setClient _ c _)
              refine Links.trans ?_ (setClient_links _ c _ rfl rfl (Or.inr rfl))
              exact ((Abstains.setRequest w _ _).trans
                (Abstains.setRequest _ _ _)).links
      · exact finishRequest_links w c none

theorem hopping_links (w : World) (c r : Nat) (response : Response) :
    Links w (w.hopping c r response) := by
  unfold hopping
  dsimp only
  refine Links.trans ?_ (Abstains.setRequest _ r _).links
  have left :
      Links w
        ((w.detached c).setRequest r
          { (w.detached c).requests r with client := none }) :=
    (detached_links w c).trans (Abstains.setRequest _ r _).links
  split
  · exact left
  · exact left.trans (Abstains.of_tunes (.reset _ c)).links

theorem followRedirect_links (w : World) (c r : Nat) (response : Response) :
    PostLinks w (w.followRedirect c r response) := by
  have hops := hopping_links w c r response
  have self : PostLinks w ((w.hopping c r response).clientRequest c r) :=
    (clientRequest_links _ c r).after hops
  unfold followRedirect
  dsimp only
  split
  · exact self
  · rename_i p _
    split
    · refine PostLinks.andThen ?_ fun next => ?_
      · exact (putback_links _ p c).after
          (hops.trans (Abstains.of_tunes (.rested _ c)).links)
      · exact (poolRequest_links _ p r).after
          (Abstains.of_tunes (.weak next c true)).links
    · exact self

theorem redirected_links (w : World) (c : Nat) :
    LinksTo w (w.redirected c) := by
  have marked :
      ∀ inRedirect redirectCanceled,
        Links w
          (w.setClient c
            { w.clients c with
              inRedirect := inRedirect
              redirectCanceled := redirectCanceled }) :=
    fun _ _ => setClient_links w c _ rfl rfl (Or.inr rfl)
  unfold redirected
  dsimp only
  split
  · exact marked false false
  · split
    · trivial
    · trivial
    · refine PostLinks.before ?_ fun next => Links.refl next
      have left := marked false (w.clients c).redirectCanceled
      refine (followRedirect_links _ c _ _).after (left.trans ?_)
      split
      · exact (Abstains.setRequest _ _ _).links
      · exact Links.refl _

theorem redirectCatch_links (w : World) (c : Nat) :
    LinksTo w (w.redirectCatch c) := by
  unfold redirectCatch
  refine LinksTo.andFrames (LinksTo.after (cancel_links _ c _) ?_) _
  exact setClient_links w c _ rfl rfl (Or.inr rfl)

theorem receivePart_links (w : World) (c : Nat) (response : Response) :
    LinksTo w (w.receivePart c response) := by
  unfold receivePart
  split
  · exact Links.refl w
  · split
    · trivial
    · split <;> exact Links.refl w

/-- `on_read` acts upon the response only after it has parsed a part of the buffer. -/
theorem onReadLoop_links (w : World) (c buffer : Nat) (buf : List Parsed) :
    LinksTo w (w.onReadLoop c buffer buf) ∨
      ∃ context result,
        (w.clients c).parsing = some context ∧
          LinksTo (w.parseShift c buffer context result)
            (w.onReadLoop c buffer buf) := by
  cases buf with
  | nil =>
      exact Or.inl (Links.refl w)
  | cons result rest =>
      cases parsing : (w.clients c).parsing with
      | none =>
          simp only [onReadLoop, parsing]
          exact Or.inl (Abstains.of_tunes (.reset w c)).links
      | some context =>
          refine Or.inr ⟨context, result, rfl, ?_⟩
          simp only [onReadLoop, parsing]
          cases result with
          | error error _ =>
              exact cancel_links _ c _
          | headers =>
              exact Links.refl _
          | body _ =>
              exact receivePart_links _ c _
          | done _ =>
              exact (analyzeRequest_links _ c).andFrames _

theorem onEof_links
    (w : World)
    (c : Nat)
    (error : Option ErrorCode)
    (response : Response) :
    LinksTo w (w.onEof c error response) := by
  unfold onEof
  dsimp only
  split
  · exact (Abstains.of_tunes (.reset w c)).links
  · trivial
  · have ended :
        Links w
          (w.setClient c
            { w.clients c with
              response := some { response with isDone := true }
              parsing := none }) :=
      setClient_links w c _ rfl rfl (Or.inl rfl)
    split
    · exact (cancel_links _ c _).after ended
    · exact (analyzeRequest_links _ c).after ended

theorem formFileComplete_links
    (w : World)
    (c : Nat)
    (error : Option ErrorCode) :
    LinksTo w (w.formFileComplete c error) := by
  unfold formFileComplete
  split
  · exact finishRequest_links w c _
  · dsimp only
    have counted :
        Links w
          (w.setClient c
            { w.clients c with formField := (w.clients c).formField + 1 }) :=
      setClient_links w c _ rfl rfl (Or.inr rfl)
    refine PostLinks.before (PostLinks.after ?_ counted)
      fun next => Links.refl next
    generalize w.setClient c
      { w.clients c with formField := (w.clients c).formField + 1 } = next
    cases active : (next.clients c).request with
    | none =>
        simp only [sendForm, active]
        trivial
    | some r =>
        exact (sendForm_post next c r active).imp
          (fun _ sends => (Abstains.of_tunes (.of_sends sends)).links)
          (fun _ never => never.elim) fun _ _ => trivial

/-- All code but `on_read`. -/
theorem code_links
    (w : World)
    {frame : Frame}
    (notReading : ∀ c buffer buf, frame ≠ .onRead c buffer buf) :
    LinksTo w (code frame w) := by
  cases frame with
  | callback callback | rethrow =>
      exact Links.refl w
  | fire callback =>
      exact (Abstains.emit w rfl).links
  | agentResponse a r response error =>
      change Links w (w.agentResponse a r response error)
      unfold agentResponse
      split
      · exact Links.refl w
      · exact (Abstains.of_tunes (.collect w a _ _)).links
  | agentRedirect a contextUri topLevel c context =>
      obtain ⟨reason, _, faults⟩ | ⟨response, r, _, _, acts⟩ :=
        code_agentRedirect w a contextUri topLevel c context
      · rw [faults]
        trivial
      · rw [acts]
        exact (Abstains.of_tunes
          ((Tunes.collect w a _ _).trans (.inject _ a r _ _ _))).links
  | onRead c buffer buf =>
      exact (notReading c buffer buf rfl).elim
  | continued c =>
      exact setClient_links w c _ rfl rfl (Or.inr rfl)
  | redirected c =>
      exact redirected_links w c
  | redirectCatch c =>
      exact redirectCatch_links w c
  | cancelReturn p key ticket generation =>
      change LinksTo w (w.cancelReturn p key ticket generation)
      unfold cancelReturn
      split
      · trivial
      · dsimp only
        split
        · exact setEntry_links w p key _
        · trivial

theorem onTimer_links (w : World) (r : Nat) : LinksTo w (w.onTimer r) := by
  unfold onTimer
  dsimp only
  split
  · exact cancel_links w _ _
  · exact cancelRequest_links w _ r _
  · exact Links.refl w

theorem acceptedOn_links
    {straight : Straight}
    (post : PostLinks w straight)
    (pool : Option Nat)
    (loop r : Nat) :
    LinksTo w (straight.before (acceptedOn pool loop r)) :=
  post.before fun next => (Abstains.emit next rfl).links

theorem linksTo_of_tunes
    {step : Step}
    (runs : Runs step (Tunes w) (Tunes w)) :
    LinksTo w step :=
  (runs.imp (fun _ tunes => (Abstains.of_tunes tunes).links)
    fun _ tunes => (Abstains.of_tunes tunes).links).holds

/-- All calls and events but `on_read`. -/
theorem accept_links
    {input : Input}
    {top : Option Frame}
    {step : Step}
    (notReading : ∀ c buf, input ≠ .onRead c buf)
    (accepted : accept input top w = some step) :
    LinksTo w step := by
  cases input with
  | edit r fields =>
      simp only [accept] at accepted
      split at accepted <;> cases accepted
      exact (Abstains.setRequest w r _).links
  | listen r =>
      cases top <;> simp only [accept, reduceCtorEq] at accepted
      cases accepted
      exact (Abstains.setRequest w r _).links
  | newClient loop =>
      cases accepted
      exact newClient_links w loop none
  | clientRequest c r =>
      simp only [accept] at accepted
      split at accepted <;> cases accepted
      exact acceptedOn_links (clientRequest_links w c r) none _ r
  | poolRequest p r =>
      cases accepted
      exact acceptedOn_links (poolRequest_links w p r) (some p) _ r
  | agentRequest a r contextUri topLevel =>
      cases accepted
      refine acceptedOn_links ?_ _ _ r
      rcases agentRequest_tunes w a r contextUri topLevel with
        fault | ⟨next, tunes, shape⟩
      · rw [fault]
        trivial
      · rw [shape]
        exact (poolRequest_links next _ r).after (Abstains.of_tunes tunes).links
  | cancel r error =>
      cases accepted
      unfold requestCancel
      dsimp only
      split
      · exact cancel_links w _ error
      · exact cancelRequest_links w _ r error
      · exact Links.refl w
  | clientCancel c error =>
      cases accepted
      exact cancel_links w c error
  | sendChunk r data =>
      cases accepted
      exact linksTo_of_tunes (sendChunk_tunes w r data)
  | sendFinalChunk r data =>
      cases accepted
      exact linksTo_of_tunes (sendFinalChunk_tunes w r data)
  | maxConnections p value =>
      cases accepted
      exact same_links rfl rfl rfl rfl rfl
  | advance loop milliseconds =>
      cases top <;> simp only [accept, reduceCtorEq] at accepted
      cases accepted
      exact same_links rfl rfl rfl rfl rfl
  | onConnect c error =>
      cases top <;> simp only [accept, reduceCtorEq] at accepted
      split at accepted
      · cases error with
        | none =>
            cases accepted
            exact setTcp_links w c _ (Or.inl rfl)
        | some error =>
            cases accepted
            exact (cancel_links _ c _).after (setTcp_links w c _ (Or.inr rfl))
      · cases accepted
  | onWrite c error =>
      cases top <;> simp only [accept, reduceCtorEq] at accepted
      split at accepted
      · cases error with
        | none =>
            cases accepted
            exact setTcp_links w c _ (Or.inl rfl)
        | some error =>
            cases accepted
            refine LinksTo.after (cancel_links _ c _) ?_
            exact setTcp_links w c _ (Or.inl rfl)
      · cases accepted
  | onRead c buf =>
      exact (notReading c buf rfl).elim
  | onReadError c error =>
      cases top <;> simp only [accept, reduceCtorEq] at accepted
      split at accepted <;> cases accepted
      exact cancel_links w c _
  | onEof c error response =>
      cases top <;> simp only [accept, reduceCtorEq] at accepted
      split at accepted <;> cases accepted
      refine LinksTo.after (onEof_links _ c error response) ?_
      refine Links.trans ?_ (Abstains.emit _ rfl).links
      exact setTcp_links w c _ (Or.inl rfl)
  | onTimer r =>
      cases top <;> simp only [accept, reduceCtorEq] at accepted
      split at accepted
      · cases accepted
      · split at accepted
        · cases accepted
        · split at accepted <;> cases accepted
          unfold fireTimer
          dsimp only
          split
          · exact (onTimer_links _ r).after (Abstains.setRequest w r _).links
          · exact (Abstains.setRequest w r _).links
  | streamData r item data =>
      cases top <;> simp only [accept, reduceCtorEq] at accepted
      split at accepted <;> cases accepted
      exact (Abstains.of_tunes (.write w _ _ (by simp))).links
  | streamFinish r item error =>
      cases top <;> simp only [accept, reduceCtorEq] at accepted
      split at accepted <;> cases accepted
      exact (formFileComplete_links _ _ error).after
        (Abstains.setRequest w r _).links
  | checkInactivity p =>
      cases top <;> simp only [accept, reduceCtorEq] at accepted
      split at accepted <;> cases accepted
      exact same_links rfl rfl rfl rfl rfl

/-- The stream delivers a buffer that it has read from a connection. -/
def readFrom (w : World) (c n : Nat) : World :=
  { w with nextBuffer := w.nextBuffer + 1 }.emit (.delivered c n w.nextBuffer)

/-- `on_read` begins on the connection that the client has. -/
theorem accept_onRead
    {c : Nat}
    {buf : List Parsed}
    {top : Option Frame}
    {step : Step}
    (accepted : accept (.onRead c buf) top w = some step) :
    ∃ n,
      (w.clients c).tcp.connection = some n ∧
        step = .next (w.readFrom c n) [.onRead c w.nextBuffer buf] := by
  cases top <;> simp only [accept, reduceCtorEq] at accepted
  split at accepted
  · rename_i n _ _ connection
    cases accepted
    exact ⟨n, connection, rfl⟩
  · cases accepted

end Code

/-- What every link keeps, and what reading keeps, is kept by every step. -/
theorem maintains_of_links
    {invariant : World → Prop}
    (abstains :
      ∀ before after, Abstains before after → invariant before → invariant after)
    (starts :
      ∀ before c r after,
        Started before c r after → invariant before → invariant after)
    (delivers :
      ∀ before c n,
        (before.clients c).tcp.connection = some n →
        invariant before →
        invariant (before.readFrom c n))
    (parses :
      ∀ before c buffer context result,
        (before.clients c).parsing = some context →
        invariant before →
        invariant (before.parseShift c buffer context result)) :
    machine.Maintains (fun _ _ => True) invariant (fun _ => True) := by
  have holds :
      ∀ (w : World) (step : Step),
        LinksTo w step →
        invariant w →
        step.Holds invariant (fun _ => True) := by
    intro w step links kept
    cases step with
    | next next frames | raise next =>
        exact Links.keeps abstains starts links kept
    | fault reason =>
        trivial
  constructor
  · intro frame rest w _ _ kept
    by_cases reading : ∃ c buffer buf, frame = .onRead c buffer buf
    · obtain ⟨c, buffer, buf, rfl⟩ := reading
      rcases onReadLoop_links w c buffer buf with
        links | ⟨context, result, parsing, links⟩
      · exact holds w _ links kept
      · exact holds _ _ links (parses w c buffer context result parsing kept)
    · push Not at reading
      exact holds w _ (code_links w reading) kept
  · intro input stack w outcome _ _ kept accepted
    by_cases reading : ∃ c buf, input = .onRead c buf
    · obtain ⟨c, buf, rfl⟩ := reading
      obtain ⟨n, connection, rfl⟩ := accept_onRead accepted
      exact delivers w c n connection kept
    · push Not at reading
      exact holds w outcome (accept_links reading accepted) kept

/-- A choice adds to the history. -/
theorem trace_grows
    {config next : Config}
    {label : Label}
    (stepped : machine.step? config label = some next) :
    ∃ events, next.state.trace = config.state.trace ++ events := by
  have kept :
      machine.Maintains (fun _ _ => True)
        (fun w => ∃ events, w.trace = config.state.trace ++ events)
        (fun _ => True) := by
    have extends_of :
        ∀ {before after : World} {added : List Event},
          after.trace = before.trace ++ added →
          (∃ events, before.trace = config.state.trace ++ events) →
          ∃ events, after.trace = config.state.trace ++ events := by
      rintro before after added trace ⟨events, begun⟩
      exact ⟨events ++ added, by rw [trace, begun, List.append_assoc]⟩
    refine maintains_of_links (fun before after abstains => ?_)
      (fun before c r after started => ?_)
      (fun before c n _ => extends_of rfl)
      (fun before c buffer context result _ => extends_of rfl)
    · obtain ⟨events, trace, _⟩ := abstains.trace
      exact extends_of trace
    · obtain ⟨tcp, opening, pieces, _, _, _, trace, _⟩ := started.connects
      rw [List.append_assoc] at trace
      exact extends_of trace
  exact (kept.step config label next ⟨⟨[], by simp⟩, fun _ _ => trivial⟩
    trivial stepped).1

/-! ## What a connection conveys -/

/-- A connection that was opened for the location, and for the first head on it. -/
def Conveys
    (config : WorldConfig)
    (c n : Nat)
    (netloc : NetLoc)
    (history : List Event) : Prop :=
  ∃ opener first timeout socks,
    .opened c n netloc timeout (config.tlsSetup first) socks ∈ history ∧
      .wrote c n (.head opener first) ∈ history ∧
      config.netloc first = netloc

/-- A head is written on a connection that carries requests to its location. -/
def OnItsConnection (config : WorldConfig) (earlier : List Event) : Event → Prop
  | .wrote c n (.head r fields) =>
      Conveys config c n (config.netloc fields)
        (earlier ++ [.wrote c n (.head r fields)])
  | _ => True

/-- The connection that is opened. -/
def opened? : Event → Option Nat
  | .opened _ n _ _ _ _ => some n
  | _ => none

/-- The connections and what has been written on them. -/
structure Plugged (w : World) : Prop where
  named : ∀ n ∈ w.trace.filterMap opened?, n < w.nextConnection
  /-- No connection is opened twice. -/
  once : (w.trace.filterMap opened?).Nodup
  carried :
    ∀ c n,
      (w.clients c).tcp.connection = some n →
      Conveys w.config c n (w.clients c).netloc w.trace
  headed : History.Each (OnItsConnection w.config) w.trace

theorem Conveys.mono
    {config : WorldConfig}
    {c n : Nat}
    {netloc : NetLoc}
    {history longer : List Event}
    (conveys : Conveys config c n netloc history)
    (grows : ∀ event ∈ history, event ∈ longer) :
    Conveys config c n netloc longer := by
  obtain ⟨opener, first, timeout, socks, opened, wrote, same⟩ := conveys
  exact ⟨opener, first, timeout, socks, grows _ opened, grows _ wrote, same⟩

theorem isPlugging_of_spare
    {event : Event}
    (spare : isWiring event = false) :
    isPlugging event = false := by
  cases event <;> first | rfl | exact spare

theorem unopened_of_spare
    {event : Event}
    (spare : isPlugging event = false) :
    opened? event = none := by
  cases event <;> first | rfl | cases spare

/-- Only heads need a connection. -/
theorem onItsConnection_of_spare
    {event : Event}
    (spare : isPlugging event = false)
    (config : WorldConfig)
    (earlier : List Event) :
    OnItsConnection config earlier event := by
  unfold OnItsConnection
  split
  · cases spare
  · trivial

/-- No head is among the observations that are added. -/
theorem each_spared
    {config : WorldConfig}
    {history events : List Event}
    (headed : History.Each (OnItsConnection config) history)
    (spare : ∀ event ∈ events, isPlugging event = false) :
    History.Each (OnItsConnection config) (history ++ events) :=
  headed.extend fun event member earlier =>
    onItsConnection_of_spare (spare event member) config earlier

section Plugged

variable {w next : World}

/-- No connection is opened and no head is written. -/
theorem Plugged.lasts
    {events : List Event}
    (plugged : Plugged w)
    (config : next.config = w.config)
    (nextConnection : next.nextConnection = w.nextConnection)
    (kept :
      ∀ c n,
        (next.clients c).tcp.connection = some n →
        (w.clients c).tcp.connection = some n ∧
          (next.clients c).netloc = (w.clients c).netloc)
    (trace : next.trace = w.trace ++ events)
    (spare : ∀ event ∈ events, isPlugging event = false) :
    Plugged next := by
  have same : next.trace.filterMap opened? = w.trace.filterMap opened? := by
    rw [trace]
    exact History.filterMap_append_unnamed fun event member =>
      unopened_of_spare (spare event member)
  constructor
  · rw [same, nextConnection]
    exact plugged.named
  · rw [same]
    exact plugged.once
  · intro c n isPlugged
    obtain ⟨was, netloc⟩ := kept c n isPlugged
    rw [config, netloc]
    refine (plugged.carried c n was).mono fun event member => ?_
    rw [trace]
    exact List.mem_append_left _ member
  · rw [config, trace]
    exact each_spared plugged.headed spare

theorem Plugged.abstains
    (plugged : Plugged w)
    (abstains : Abstains w next) :
    Plugged next := by
  obtain ⟨events, trace, spare⟩ := abstains.trace
  exact plugged.lasts abstains.config abstains.nextConnection abstains.plugged
    trace fun event member => isPlugging_of_spare (spare event member)

theorem Plugged.readFrom
    (plugged : Plugged w)
    (c n : Nat) :
    Plugged (w.readFrom c n) :=
  plugged.lasts rfl rfl
    (fun _ _ connection => ⟨connection, rfl⟩) rfl (by simp [isPlugging])

theorem Plugged.parseShift
    (plugged : Plugged w)
    (c buffer context : Nat)
    (result : Parsed) :
    Plugged (w.parseShift c buffer context result) := by
  refine plugged.lasts rfl rfl
    (fun d n connection => ?_) rfl (by simp [isPlugging])
  by_cases same : d = c
  · subst d
    simpa [World.parseShift, World.setClient, emit] using connection
  · simpa [World.parseShift, World.setClient, emit, same] using connection

/-- What `Client::request` opens and writes for a request, if it has a connection. -/
theorem Plugged.carries_started
    {c n : Nat}
    (r : Nat)
    {fields : RequestFields}
    {tcp : Tcp}
    {opening : List Event}
    (plugged : Plugged w)
    (connects : Connects w c fields tcp opening)
    (connection : tcp.connection = some n) :
    Conveys w.config c n (w.config.netloc fields)
      (w.trace ++ opening ++ [.started c r] ++
        [.wrote c n (.head r fields)]) := by
  cases connects with
  | reuses _ netloc _ =>
      rw [← netloc]
      refine (plugged.carried c n connection).mono fun event member => ?_
      simp [member]
  | opens tcp timeout _ isNext _ tls =>
      obtain rfl : n = w.nextConnection := by
        simpa [connection] using isNext
      exact ⟨r, fields, timeout, tcp.socks, by simp [tls], by simp, rfl⟩

/-- A connection is opened under a new name. -/
theorem Plugged.opens
    {c : Nat}
    {fields : RequestFields}
    {tcp : Tcp}
    {opening : List Event}
    (plugged : Plugged w)
    (connects : Connects w c fields tcp opening) :
    (∀ n ∈ (w.trace ++ opening).filterMap opened?,
        n < w.nextConnection + opening.length) ∧
      ((w.trace ++ opening).filterMap opened?).Nodup ∧
      History.Each (OnItsConnection w.config) (w.trace ++ opening) := by
  cases connects with
  | reuses _ _ _ =>
      rw [List.append_nil]
      exact ⟨plugged.named, plugged.once, plugged.headed⟩
  | opens tcp limit _ _ _ _ =>
      have fresh : w.nextConnection ∉ w.trace.filterMap opened? :=
        fun member => Nat.lt_irrefl _ (plugged.named _ member)
      simp only [List.filterMap_append, List.filterMap_cons, opened?,
        List.filterMap_nil, List.length_singleton]
      refine ⟨?_, ?_, ?_⟩
      · intro n member
        rcases List.mem_append.mp member with before | new
        · have below := plugged.named n before
          omega
        · rw [List.mem_singleton] at new
          omega
      · rw [← List.concat_eq_append]
        exact plugged.once.concat fresh
      · rw [History.each_snoc]
        exact ⟨plugged.headed, trivial⟩

theorem Plugged.started
    {c r : Nat}
    (plugged : Plugged w)
    (started : Started w c r next) :
    Plugged next := by
  obtain ⟨tcp, opening, pieces, connects, client, nextConnection, trace, body⟩ :=
    started.connects
  have tail :
      ∀ event ∈ pieces.flatMap (wroteOn c tcp.connection),
        isPlugging event = false := by
    intro event member
    simp only [wroteOn, List.mem_flatMap, List.mem_map] at member
    obtain ⟨piece, isPiece, n, _, rfl⟩ := member
    have notHead := (body piece isPiece).2
    cases piece with
    | head s fields =>
        exact (notHead s fields rfl).elim
    | _ =>
        rfl
  obtain ⟨named, once, headed⟩ := plugged.opens connects
  have same :
      next.trace.filterMap opened? = (w.trace ++ opening).filterMap opened? := by
    rw [trace]
    refine History.filterMap_append_unnamed fun event member => ?_
    simp only [List.mem_append, List.mem_cons] at member
    rcases member with rfl | isHead | isTail
    · rfl
    · simp only [wroteOn, List.mem_map] at isHead
      obtain ⟨_, _, rfl⟩ := isHead
      rfl
    · exact unopened_of_spare (tail event isTail)
  constructor
  · rw [same, nextConnection]
    exact named
  · rw [same]
    exact once
  · intro d n isPlugged
    rw [started.config]
    by_cases same : d = c
    · subst d
      have connection : tcp.connection = some n := by
        rw [client] at isPlugged
        exact isPlugged
      rw [started.client]
      refine (plugged.carries_started r connects connection).mono
        fun event member => ?_
      rw [trace, connection]
      simp only [wroteOn, Option.toList_some, List.map_cons, List.map_nil,
        List.mem_append, List.mem_cons, List.not_mem_nil, or_false]
        at member ⊢
      tauto
    · rw [started.clients d same] at isPlugged ⊢
      refine (plugged.carried d n isPlugged).mono fun event member => ?_
      rw [trace, List.append_assoc]
      exact List.mem_append_left _ member
  · rw [started.config, trace]
    cases connection : tcp.connection with
    | none =>
        refine each_spared headed fun event member => ?_
        rw [connection] at tail
        simp only [wroteOn, Option.toList_none, List.map_nil, List.nil_append,
          List.mem_cons] at member
        rcases member with rfl | isTail
        · rfl
        · exact tail event isTail
    | some n =>
        have onIts :
            OnItsConnection w.config (w.trace ++ opening ++ [.started c r])
              (.wrote c n
                (.head r (w.requests r).toRequestFields.withScheme)) :=
          plugged.carries_started r connects connection
        have begun :
            History.Each (OnItsConnection w.config)
              (w.trace ++ opening ++ [.started c r]) :=
          each_spared headed (by simp [isPlugging])
        have written := History.each_snoc.mpr ⟨begun, onIts⟩
        rw [connection] at tail
        have all := each_spared written tail
        simpa [wroteOn] using all

end Plugged

/-! ## Every run -/

/-- The client connects to an http proxy, whatever the request's own location is. -/
def ThroughProxy (config : WorldConfig) (fields : RequestFields) : Prop :=
  ∃ proxy, fields.proxy = some proxy ∧ (config.proxyUri proxy).scheme = "http"

/-- The uri of the request is secure. -/
def Secure (config : WorldConfig) (fields : RequestFields) : Prop :=
  (fields.uri.getD {}).secure config.schemes = true

/-- The location of a request that is sent to its own host. -/
theorem netloc_of_direct
    {config : WorldConfig}
    {fields : RequestFields}
    (direct : ¬ ThroughProxy config fields) :
    config.netloc fields =
      { host := (fields.uri.getD {}).host
        port := (fields.uri.getD {}).port config.schemes
        sslCtx := fields.sslCtx
        proxy := fields.proxy
        sslCheckCert := fields.sslCheckCert } := by
  unfold WorldConfig.netloc
  cases proxied : fields.proxy with
  | none =>
      rfl
  | some proxy =>
      have notHttp : (config.proxyUri proxy).scheme ≠ "http" :=
        fun isHttp => direct ⟨proxy, proxied, isHttp⟩
      simp [notHttp]

/-- Requests to one location need one TLS layer, if both are secure or neither is. -/
theorem tlsSetup_of_netloc
    {config : WorldConfig}
    {first second : RequestFields}
    (firstDirect : ¬ ThroughProxy config first)
    (secondDirect : ¬ ThroughProxy config second)
    (location : config.netloc first = config.netloc second)
    (secure : Secure config first ↔ Secure config second) :
    config.tlsSetup first = config.tlsSetup second := by
  rw [netloc_of_direct firstDirect, netloc_of_direct secondDirect,
    NetLoc.mk.injEq] at location
  obtain ⟨host, _, sslCtx, _, sslCheckCert⟩ := location
  unfold Secure at secure
  unfold WorldConfig.tlsSetup
  simp only [host, sslCtx, sslCheckCert, secure]

/--
The connection was opened once, for the location of the request.  Its TLS layer was
set up for the first request on it, and it is the one that this request needs, unless
only one of the two is secure or an http proxy is used.
-/
def FitsConnection
    (config : WorldConfig)
    (history earlier : List Event)
    (c n r : Nat)
    (fields : RequestFields) : Prop :=
  (history.filterMap opened?).count n = 1 ∧
    ∃ opener first timeout socks,
      .opened c n (config.netloc fields) timeout (config.tlsSetup first) socks ∈
          earlier ∧
        (∀ event ∈ history,
          opened? event = some n →
          event =
            .opened c n (config.netloc fields) timeout (config.tlsSetup first)
              socks) ∧
        .wrote c n (.head opener first) ∈
          earlier ++ [.wrote c n (.head r fields)] ∧
        config.netloc first = config.netloc fields ∧
        (¬ ThroughProxy config first →
          ¬ ThroughProxy config fields →
          (Secure config first ↔ Secure config fields) →
          config.tlsSetup first = config.tlsSetup fields)

/-- Connections are opened under their own names, and keep their location. -/
theorem plugged_of_run
    {w : World}
    {labels : List Label}
    {final : Config}
    (fresh : Fresh w)
    (ran : run? w labels = some final) :
    Plugged final.state ∧ final.state.config = w.config := by
  have starts : Plugged w :=
    { named := by simp [fresh.trace]
      once := by simp [fresh.trace]
      carried := by simp [fresh.clients]
      headed := by
        rw [fresh.trace]
        exact History.each_nil _ }
  have kept :
      machine.Maintains (fun _ _ => True)
        (fun next => Plugged next ∧ next.config = w.config) (fun _ => True) :=
    maintains_of_links
      (fun _ _ abstains holds =>
        ⟨holds.1.abstains abstains, abstains.config.trans holds.2⟩)
      (fun _ _ _ _ started holds =>
        ⟨holds.1.started started, started.config.trans holds.2⟩)
      (fun _ c n _ holds => ⟨holds.1.readFrom c n, holds.2⟩)
      (fun _ c buffer context result _ holds =>
        ⟨holds.1.parseShift c buffer context result, holds.2⟩)
  exact (kept.run ⟨starts, rfl⟩ rfl (machine.guarded_true _ labels) ran).1

/-- In every run, every head is written on a connection that fits its request. -/
theorem carried_of_run
    (w : World)
    (labels : List Label)
    (final : Config)
    (fresh : Fresh w)
    (ran : run? w labels = some final)
    (earlier later : List Event)
    (c n r : Nat)
    (fields : RequestFields)
    (shape :
      final.state.trace = earlier ++ .wrote c n (.head r fields) :: later) :
    FitsConnection w.config final.state.trace earlier c n r fields := by
  obtain ⟨plugged, config⟩ := plugged_of_run fresh ran
  have conveys := plugged.headed earlier _ later shape
  rw [config] at conveys
  obtain ⟨opener, first, timeout, socks, opened, wrote, location⟩ := conveys
  have opened := (List.mem_append.mp opened).resolve_right (by simp)
  have inTrace :
      .opened c n (w.config.netloc fields) timeout (w.config.tlsSetup first) socks ∈
        final.state.trace := by
    rw [shape]
    exact List.mem_append_left _ opened
  refine ⟨?_, opener, first, timeout, socks, opened, ?_, wrote, location, ?_⟩
  · exact List.count_eq_one_of_mem plugged.once
      (List.mem_filterMap.mpr ⟨_, inTrace, rfl⟩)
  · intro event member isOpened
    exact History.eq_of_name plugged.once member inTrace isOpened rfl
  · intro firstDirect secondDirect secure
    exact tlsSetup_of_netloc firstDirect secondDirect location secure

/-- Two requests are sent to one host, one after the other. -/
def keptAlive : List Label :=
  [.input (.edit 0 { uri := some { scheme := "https", host := "here" } }),
    .input (.edit 1 { uri := some { scheme := "https", host := "here" } }),
    .input (.newClient 0), .input (.clientRequest 0 0),
    .input (.onConnect 0 none), .input (.onRead 0 [.done { code := 200 }]),
    .tick, .tick, .ret, .tick, .ret, .tick, .input (.clientRequest 0 1)]

theorem carried_keptAlive :
    ∃ final,
      run? (initial {}) keptAlive = some final ∧
        FitsConnection {} final.state.trace (final.state.trace.take 10) 0 0 1
          { uri := some { scheme := "https", host := "here" } } :=
  ⟨_, rfl,
    carried_of_run (initial {}) keptAlive _ (fresh_initial {}) rfl _
      [.accepted 1 none 0 0 20000] 0 0 1 _ rfl⟩

end UniEventHttp.ClientSide.World
