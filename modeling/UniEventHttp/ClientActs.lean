import UniEventHttp.ClientState

namespace UniEventHttp.ClientSide.World

/-!
# What a step of the clients amounts to

Before the code calls the application it does at most one thing that matters to
queues, requests and connections: it ends the request of a client, follows a
redirect, ends a request that waits or erases its place.  What it does besides is
a `Tunes`, which leaves all of them alone.  An exception of the code itself comes
from `Client::request`, when `putback` or a redirect has called it.
-/

/-- Observations of callbacks, jars, exceptions and the bodies of requests. -/
def isMinor : Event → Bool
  | .wrote _ _ (.head _ _) => false
  | .wrote _ _ _ => true
  | .ended _ _ => true
  | .fired _ => true
  | .collected _ _ _ => true
  | .populated _ _ _ _ => true
  | .threw _ => true
  | _ => false

/-- Header fields are taken out, and at most a `User-Agent` is added. -/
def Trims (old new : Headers) : Prop :=
  ∀ field ∈ new, field ∈ old ∨ field.1 = "User-Agent"

theorem Trims.refl (headers : Headers) : Trims headers headers :=
  fun _ => Or.inl

theorem Trims.trans
    {one two three : Headers}
    (early : Trims one two)
    (late : Trims two three) :
    Trims one three := by
  intro field member
  exact (late field member).elim (early field) Or.inr

theorem trims_redirectedTo (request : Request) (location : Uri) :
    Trims request.headers (request.redirectedTo location).headers :=
  fun _ member => Or.inl (List.mem_of_mem_filter member)

/-- Nothing is started, ended, queued, opened or parsed; a stream may be reset. -/
structure Tunes (w next : World) : Prop where
  config : next.config = w.config
  now : next.now = w.now
  nextClient : next.nextClient = w.nextClient
  nextConnection : next.nextConnection = w.nextConnection
  nextBuffer : next.nextBuffer = w.nextBuffer
  pools : next.pools = w.pools
  loop : ∀ c, (next.clients c).loop = (w.clients c).loop
  pool : ∀ c, (next.clients c).pool = (w.clients c).pool
  netloc : ∀ c, (next.clients c).netloc = (w.clients c).netloc
  request : ∀ c, (next.clients c).request = (w.clients c).request
  parsing :
    ∀ c,
      (next.clients c).parsing = (w.clients c).parsing ∨
        (next.clients c).parsing = none
  connection :
    ∀ c,
      (next.clients c).tcp.connection = (w.clients c).tcp.connection ∨
        (next.clients c).tcp.connection = none
  link : ∀ r, (next.requests r).client = (w.requests r).client
  owner : ∀ r, (next.requests r).pool = (w.requests r).pool
  timer : ∀ r, (next.requests r).timer = (w.requests r).timer
  timeout : ∀ r, (next.requests r).timeout = (w.requests r).timeout
  headers : ∀ r, Trims (w.requests r).headers (next.requests r).headers
  trace :
    ∃ events,
      next.trace = w.trace ++ events ∧
        ∀ event ∈ events, isMinor event = true

namespace Tunes

variable {w next third : World}

theorem refl (w : World) : Tunes w w :=
  ⟨rfl, rfl, rfl, rfl, rfl, rfl, fun _ => rfl, fun _ => rfl, fun _ => rfl,
    fun _ => rfl, fun _ => Or.inl rfl, fun _ => Or.inl rfl, fun _ => rfl,
    fun _ => rfl, fun _ => rfl, fun _ => rfl, fun _ => .refl _, [], by simp,
    by simp⟩

theorem trans
    (one : Tunes w next)
    (two : Tunes next third) :
    Tunes w third where
  config := two.config.trans one.config
  now := two.now.trans one.now
  nextClient := two.nextClient.trans one.nextClient
  nextConnection := two.nextConnection.trans one.nextConnection
  nextBuffer := two.nextBuffer.trans one.nextBuffer
  pools := two.pools.trans one.pools
  loop c := (two.loop c).trans (one.loop c)
  pool c := (two.pool c).trans (one.pool c)
  netloc c := (two.netloc c).trans (one.netloc c)
  request c := (two.request c).trans (one.request c)
  parsing c := by
    rcases two.parsing c with same | gone
    · rw [same]
      exact one.parsing c
    · exact Or.inr gone
  connection c := by
    rcases two.connection c with same | gone
    · rw [same]
      exact one.connection c
    · exact Or.inr gone
  link r := (two.link r).trans (one.link r)
  owner r := (two.owner r).trans (one.owner r)
  timer r := (two.timer r).trans (one.timer r)
  timeout r := (two.timeout r).trans (one.timeout r)
  headers r := (one.headers r).trans (two.headers r)
  trace := by
    obtain ⟨first, traceOne, minorOne⟩ := one.trace
    obtain ⟨second, traceTwo, minorTwo⟩ := two.trace
    refine ⟨first ++ second, by rw [traceTwo, traceOne, List.append_assoc], ?_⟩
    intro event member
    exact (List.mem_append.mp member).elim (minorOne event) (minorTwo event)

theorem emit
    (w : World)
    {event : Event}
    (minor : isMinor event = true) :
    Tunes w (w.emit event) :=
  ⟨rfl, rfl, rfl, rfl, rfl, rfl, fun _ => rfl, fun _ => rfl, fun _ => rfl,
    fun _ => rfl, fun _ => Or.inl rfl, fun _ => Or.inl rfl, fun _ => rfl,
    fun _ => rfl, fun _ => rfl, fun _ => rfl, fun _ => .refl _, [event], rfl,
    by simpa⟩

theorem setClient
    (w : World)
    (c : Nat)
    (client : Client)
    (loop : client.loop = (w.clients c).loop)
    (pool : client.pool = (w.clients c).pool)
    (netloc : client.netloc = (w.clients c).netloc)
    (request : client.request = (w.clients c).request)
    (parsing :
      client.parsing = (w.clients c).parsing ∨ client.parsing = none)
    (connection :
      client.tcp.connection = (w.clients c).tcp.connection ∨
        client.tcp.connection = none) :
    Tunes w (w.setClient c client) := by
  have field :
      ∀ {P : Client → Client → Prop},
        P (w.clients c) client →
        (∀ d, P (w.clients d) (w.clients d)) →
        ∀ d, P (w.clients d) ((w.setClient c client).clients d) := by
    intro P here others d
    by_cases same : d = c
    · subst d
      simpa [World.setClient] using here
    · simpa [World.setClient, same] using others d
  refine ⟨rfl, rfl, rfl, rfl, rfl, rfl, ?_, ?_, ?_, ?_, ?_, ?_, fun _ => rfl,
    fun _ => rfl, fun _ => rfl, fun _ => rfl, fun _ => .refl _, [],
    by simp [World.setClient], by simp⟩
  · exact field (P := fun old new => new.loop = old.loop) loop fun _ => rfl
  · exact field (P := fun old new => new.pool = old.pool) pool fun _ => rfl
  · exact field (P := fun old new => new.netloc = old.netloc) netloc
      fun _ => rfl
  · exact field (P := fun old new => new.request = old.request) request
      fun _ => rfl
  · exact field
      (P := fun old new => new.parsing = old.parsing ∨ new.parsing = none)
      parsing fun _ => Or.inl rfl
  · exact field
      (P := fun old new =>
        new.tcp.connection = old.tcp.connection ∨ new.tcp.connection = none)
      connection fun _ => Or.inl rfl

theorem setTcp
    (w : World)
    (c : Nat)
    (tcp : Tcp)
    (connection :
      tcp.connection = (w.clients c).tcp.connection ∨ tcp.connection = none) :
    Tunes w (w.setTcp c tcp) :=
  setClient w c _ rfl rfl rfl rfl (Or.inl rfl) connection

theorem reset (w : World) (c : Nat) : Tunes w (w.reset c) :=
  setTcp w c _ (Or.inr rfl)

theorem weak (w : World) (c : Nat) (value : Bool) : Tunes w (w.weak c value) :=
  setTcp w c _ (Or.inl rfl)

theorem rested (w : World) (c : Nat) : Tunes w (w.rested c) :=
  setClient w c _ rfl rfl rfl rfl (Or.inl rfl) (Or.inl rfl)

theorem setRequest
    (w : World)
    (r : Nat)
    (request : Request)
    (link : request.client = (w.requests r).client)
    (owner : request.pool = (w.requests r).pool)
    (timer : request.timer = (w.requests r).timer)
    (timeout : request.timeout = (w.requests r).timeout)
    (headers : Trims (w.requests r).headers request.headers) :
    Tunes w (w.setRequest r request) := by
  have field :
      ∀ {P : Request → Request → Prop},
        P (w.requests r) request →
        (∀ s, P (w.requests s) (w.requests s)) →
        ∀ s, P (w.requests s) ((w.setRequest r request).requests s) := by
    intro P here others s
    by_cases same : s = r
    · subst s
      simpa [World.setRequest] using here
    · simpa [World.setRequest, same] using others s
  refine ⟨rfl, rfl, rfl, rfl, rfl, rfl, fun _ => rfl, fun _ => rfl,
    fun _ => rfl, fun _ => rfl, fun _ => Or.inl rfl, fun _ => Or.inl rfl, ?_,
    ?_, ?_, ?_, ?_, [], by simp [World.setRequest], by simp⟩
  · exact field (P := fun old new => new.client = old.client) link fun _ => rfl
  · exact field (P := fun old new => new.pool = old.pool) owner fun _ => rfl
  · exact field (P := fun old new => new.timer = old.timer) timer fun _ => rfl
  · exact field (P := fun old new => new.timeout = old.timeout) timeout
      fun _ => rfl
  · exact field (P := fun old new => Trims old.headers new.headers) headers
      fun _ => .refl _

theorem write
    (w : World)
    (c : Nat)
    (piece : Piece)
    (body : ∀ r fields, piece ≠ .head r fields) :
    Tunes w (w.write c piece) := by
  unfold World.write
  dsimp only
  split
  · exact setTcp w c _ (Or.inl rfl)
  · refine Tunes.trans ?_ (emit _ ?_)
    · exact setTcp w c _ (Or.inl rfl)
    · cases piece with
      | head r fields =>
          exact (body r fields rfl).elim
      | _ =>
          rfl

theorem of_sends
    {c r : Nat}
    (sends : Sends w c r next) :
    Tunes w next := by
  obtain ⟨field, queue, streaming, completed, pieces, rfl, body⟩ := sends
  refine ⟨rfl, rfl, rfl, rfl, rfl, rfl, ?_, ?_, ?_, ?_, ?_, ?_, ?_, ?_, ?_, ?_,
    ?_, _, rfl, ?_⟩
  iterate 4
    intro d
    by_cases same : d = c <;> simp [sent, same]
  iterate 2
    intro d
    left
    by_cases same : d = c <;> simp [sent, same]
  iterate 4
    intro s
    by_cases same : s = r <;> simp [sent, same]
  · intro s
    by_cases same : s = r <;> simp [sent, same, Trims.refl]
  intro event member
  simp only [wroteOn, List.mem_flatMap, List.mem_map] at member
  obtain ⟨piece, isPiece, connection, _, rfl⟩ := member
  have notHead := (body piece isPiece).2
  cases piece with
  | head s fields =>
      exact (notHead s fields rfl).elim
  | _ =>
      rfl

theorem collect (w : World) (a : Nat) (cookies : Cookies) (uri : Uri) :
    Tunes w (w.collect a cookies uri) :=
  ⟨rfl, rfl, rfl, rfl, rfl, rfl, fun _ => rfl, fun _ => rfl, fun _ => rfl,
    fun _ => rfl, fun _ => Or.inl rfl, fun _ => Or.inl rfl, fun _ => rfl,
    fun _ => rfl, fun _ => rfl, fun _ => rfl, fun _ => .refl _,
    [.collected a cookies uri], rfl, by simp [isMinor]⟩

theorem inject
    (w : World)
    (a r : Nat)
    (contextUri : Uri)
    (topLevel : Bool)
    (time : Nat) :
    Tunes w (w.inject a r contextUri topLevel time) := by
  unfold World.inject
  refine Tunes.trans ?_ (Tunes.emit _ rfl)
  refine Tunes.setRequest w r _ rfl rfl rfl rfl ?_
  intro field member
  dsimp only at member
  split at member
  · exact Or.inl member
  · split at member
    · exact Or.inl member
    · refine (List.mem_append.mp member).imp id fun isAgent => ?_
      rw [List.mem_singleton.mp isAgent]

end Tunes

/-! ## Composite acts -/

/-- A client without a request goes back to its pool, if it has one. -/
inductive Releases (w : World) (c : Nat) : World → Prop where
  | alone : (w.clients c).pool = none → Releases w c w
  | back {p : Nat} {next : World} :
      (w.clients c).pool = some p → PutsBack w p c next → Releases w c next

/-- The submission of a request ends. -/
def ending (w : World) (r : Nat) : World :=
  (w.setRequest r (w.requests r).finished).emit (.finished r)

/-- The request of a client ends. -/
def Ends (w : World) (c r : Nat) (next : World) : Prop :=
  (w.clients c).request = some r ∧
    ∃ middle released,
      Tunes (w.detached c) middle ∧
        Releases middle c released ∧
        next = released.ending r

/-- A redirected request leaves its client. -/
def leaving (w : World) (c r : Nat) : World :=
  (w.detached c).setRequest r (w.requests r).cleanupAfterRedirect

/-- A redirected request goes on, on the same client or through the pool. -/
inductive Follows (w : World) (c r : Nat) : World → Prop where
  | same {middle next : World} :
      (w.clients c).request = some r →
      Tunes (w.leaving c r) middle →
      Started middle c r next →
      Follows w c r next
  | pooled {p : Nat} {middle released next : World} :
      (w.clients c).request = some r →
      (w.clients c).pool = some p →
      Tunes (w.leaving c r) middle →
      PutsBack middle p c released →
      Pooled
        ((released.weak c true).setRequest r
          { released.requests r with pool := some p }) p r next →
      Follows w c r next

/-- What the code does before it calls the application or comes to its end. -/
inductive Act (w : World) : World → Prop where
  | tunes {next : World} : Tunes w next → Act w next
  | ends {middle next : World} {c r : Nat} :
      Tunes w middle → Ends middle c r next → Act w next
  | follows {middle next : World} {c r : Nat} :
      Tunes w middle → Follows middle c r next → Act w next
  | dequeues {middle : World} {p r : Nat} :
      Tunes w middle →
      (∃ entry ∈ (middle.pools p).clients (middle.netloc r),
        r ∈ entry.queue.map Place.req) →
      Act w (middle.ending r)

theorem Act.after
    {w middle next : World}
    (act : Act middle next)
    (tunes : Tunes w middle) :
    Act w next := by
  cases act with
  | tunes later =>
      exact .tunes (tunes.trans later)
  | ends later ended =>
      exact .ends (tunes.trans later) ended
  | follows later followed =>
      exact .follows (tunes.trans later) followed
  | dequeues later waits =>
      exact .dequeues (tunes.trans later) waits

/-- `Pool::putback` takes a request from the queue, and the client refuses it. -/
def RefusesNext (w : World) (p c : Nat) (next : World) : Prop :=
  ∃ entry place rest,
    (w.pools p).clients (w.clients c).netloc = some entry ∧
      entry.queue = place :: rest ∧
      Refused
        (w.setEntry p (w.clients c).netloc (some { entry with queue := rest }))
        c place.req next

/-- `Pool::request` has thrown an exception. -/
inductive PoolRefuses (w : World) (p r : Nat) : World → Prop where
  /-- The request fails its check. -/
  | early (exception : Exception) :
      PoolRefuses w p r (w.emit (.threw exception))
  /-- The client that the pool has found refuses the request. -/
  | late {pooled placed next : World} {c : Nat} :
      pooled = w.setRequest r { w.requests r with pool := some p } →
      Places pooled p (pooled.netloc r) c placed →
      Refused placed c r next →
      PoolRefuses w p r next

theorem PoolRefuses.of_post
    {w next : World}
    {p r : Nat}
    (refused :
      (∃ exception, next = w.emit (.threw exception)) ∨
        ∃ c placed,
          Places (w.setRequest r { w.requests r with pool := some p }) p
              ((w.setRequest r
                { w.requests r with pool := some p }).netloc r) c placed ∧
            Refused placed c r next) :
    PoolRefuses w p r next := by
  rcases refused with ⟨exception, rfl⟩ | ⟨c, placed, places, refused⟩
  · exact .early exception
  · exact .late rfl places refused

/-- The request of a client has ended, and the client refuses the next one. -/
def EndsBadly (w : World) (c r : Nat) (next : World) : Prop :=
  (w.clients c).request = some r ∧
    ∃ left p,
      Tunes (w.detached c) left ∧
        (left.clients c).pool = some p ∧
        RefusesNext left p c next

/-- What the code has done when an exception leaves it. -/
inductive Mishap (w : World) : World → Prop where
  | tunes {next : World} : Tunes w next → Mishap w next
  | ends {middle next : World} {c r : Nat} :
      Tunes w middle → EndsBadly middle c r next → Mishap w next
  /-- The redirected request is refused by its client. -/
  | restarts {middle left next : World} {c r : Nat} :
      Tunes w middle →
      (middle.clients c).request = some r →
      Tunes (middle.leaving c r) left →
      Refused left c r next →
      Mishap w next
  /-- A request is redirected, and the next one of the queue is refused. -/
  | leaves {middle left next : World} {p c r : Nat} :
      Tunes w middle →
      (middle.clients c).request = some r →
      (middle.clients c).pool = some p →
      Tunes (middle.leaving c r) left →
      RefusesNext left p c next →
      Mishap w next
  /-- The redirected request is refused by the pool. -/
  | pooled {middle left released next : World} {p c r : Nat} :
      Tunes w middle →
      (middle.clients c).request = some r →
      (middle.clients c).pool = some p →
      Tunes (middle.leaving c r) left →
      PutsBack left p c released →
      PoolRefuses (released.weak c true) p r next →
      Mishap w next

theorem Mishap.after
    {w middle next : World}
    (mishap : Mishap middle next)
    (tunes : Tunes w middle) :
    Mishap w next := by
  cases mishap with
  | tunes later =>
      exact .tunes (tunes.trans later)
  | ends later ended =>
      exact .ends (tunes.trans later) ended
  | restarts later active left refused =>
      exact .restarts (tunes.trans later) active left refused
  | leaves later active inPool left refuses =>
      exact .leaves (tunes.trans later) active inPool left refuses
  | pooled later active inPool left putsBack refuses =>
      exact .pooled (tunes.trans later) active inPool left putsBack refuses

/-- If the code calls the application or comes to its end, this holds then. -/
def Leads (step : Step) (ok : World → Prop) : Prop :=
  ∀ next frames, step = .next next frames → ok next

theorem Leads.next
    {w : World}
    {frames : List Frame}
    {ok : World → Prop}
    (holds : ok w) :
    Leads (.next w frames) ok := by
  rintro final all ⟨⟩
  exact holds

theorem Leads.fault {reason : Fault} {ok : World → Prop} :
    Leads (.fault reason) ok := by
  rintro final all ⟨⟩

theorem Leads.raise {w : World} {ok : World → Prop} :
    Leads (.raise w) ok := by
  rintro final all ⟨⟩

theorem Leads.imp
    {step : Step}
    {ok after : World → Prop}
    (leads : Leads step ok)
    (implies : ∀ w, ok w → after w) :
    Leads step after :=
  fun next frames executed => implies next (leads next frames executed)

theorem leads_before
    {straight : Straight}
    {second : World → Step}
    {ok after : World → Prop}
    (post : straight.Post ok (fun _ => True) (fun _ => True))
    (next : ∀ w, ok w → Leads (second w) after) :
    Leads (straight.before second) after := by
  intro final frames executed
  obtain ⟨middle, rfl, goesOn⟩ := Straight.before_next executed
  exact next middle post final frames goesOn

theorem leads_andFrames
    {step : Step}
    {frames : List Frame}
    {ok : World → Prop}
    (leads : Leads step ok) :
    Leads (andFrames step frames) ok := by
  intro final all executed
  obtain ⟨first, isNext, _⟩ := andFrames_next executed
  exact leads final first isNext

/-- What holds if the code goes on, and what if an exception leaves it. -/
structure Runs (step : Step) (ok raise : World → Prop) : Prop where
  leads : Leads step ok
  raises : ∀ next, step = .raise next → raise next

namespace Runs

variable {ok thrown : World → Prop}

theorem next
    {w : World}
    {frames : List Frame}
    (holds : ok w) :
    Runs (.next w frames) ok thrown :=
  ⟨Leads.next holds, by rintro final ⟨⟩⟩

theorem fault {reason : Fault} : Runs (.fault reason) ok thrown :=
  ⟨Leads.fault, by rintro final ⟨⟩⟩

theorem raise
    {w : World}
    (holds : thrown w) :
    Runs (.raise w) ok thrown := by
  refine ⟨Leads.raise, ?_⟩
  rintro final ⟨⟩
  exact holds

theorem imp
    {step : Step}
    {after caught : World → Prop}
    (runs : Runs step ok thrown)
    (okImp : ∀ w, ok w → after w)
    (thrownImp : ∀ w, thrown w → caught w) :
    Runs step after caught :=
  ⟨runs.leads.imp okImp,
    fun next executed => thrownImp next (runs.raises next executed)⟩

theorem before
    {straight : Straight}
    {second : World → Step}
    {after : World → Prop}
    (post : straight.Post ok thrown (fun _ => True))
    (next : ∀ w, ok w → Runs (second w) after thrown) :
    Runs (straight.before second) after thrown := by
  refine ⟨?_, ?_⟩
  · intro final frames executed
    obtain ⟨middle, rfl, goesOn⟩ := Straight.before_next executed
    exact (next middle post).leads final frames goesOn
  · intro final executed
    rcases Straight.before_raise executed with rfl | ⟨middle, rfl, goesOn⟩
    · exact post
    · exact (next middle post).raises final goesOn

theorem andFrames
    {step : Step}
    {frames : List Frame}
    (runs : Runs step ok thrown) :
    Runs (ClientSide.andFrames step frames) ok thrown := by
  refine ⟨leads_andFrames runs.leads, ?_⟩
  intro final executed
  exact runs.raises final (andFrames_raise executed)

/-- What holds of an outcome, fault or not. -/
theorem holds
    {step : Step}
    (runs : Runs step ok ok) :
    step.Holds ok (fun _ => True) := by
  cases step with
  | next w frames =>
      exact runs.leads w frames rfl
  | raise w =>
      exact runs.raises w rfl
  | fault reason =>
      trivial

end Runs

/-! ## Ending a request -/

theorem stopForm_tunes (w : World) (c r : Nat) :
    (w.stopForm c r).Post (Tunes w) (fun _ => False) (fun _ => True) := by
  have stopped :
      ∀ middle : World,
        Tunes middle
          (middle.setClient c { middle.clients c with formField := -1 }) :=
    fun middle =>
      Tunes.setClient middle c _ rfl rfl rfl rfl (Or.inl rfl) (Or.inl rfl)
  unfold stopForm
  dsimp only
  split
  · exact Tunes.refl w
  · split
    · trivial
    · split
      · trivial
      · refine Tunes.trans ?_ (stopped _)
        exact Tunes.setRequest w r _ rfl rfl rfl rfl (.refl _)
    · exact stopped w

theorem releaseClient_act
    (w : World)
    (c r : Nat)
    (response : Option Response)
    (error : Option ErrorCode) :
    (w.releaseClient c r response error).Post
      (fun released => ∃ middle, Tunes w middle ∧ Releases middle c released)
      (fun next =>
        ∃ left p,
          Tunes w left ∧
            (left.clients c).pool = some p ∧
            RefusesNext left p c next)
      (fun _ => True) := by
  obtain ⟨drops, released⟩ := releaseClient_cases w c r response error
  rw [released]
  generalize shape :
    (if drops = true then w.reset c else w.weak c true) = kept
  have either :
      ∀ drops : Bool,
        Tunes w (if drops = true then w.reset c else w.weak c true) := by
    intro drops
    cases drops
    · exact Tunes.weak w c true
    · exact Tunes.reset w c
  have keptTunes : Tunes w kept := shape ▸ either _
  refine Straight.Post.andThen
    ((stopForm_tunes kept c r).imp (fun _ => id) (fun _ => False.elim)
      (fun _ _ => trivial)) ?_
  intro stopped stoppedTunes
  have tunes : Tunes w (stopped.rested c) :=
    (keptTunes.trans stoppedTunes).trans (Tunes.rested stopped c)
  split
  · rename_i alone
    exact ⟨_, tunes, .alone alone⟩
  · rename_i p inPool
    exact (putback_post _ p c).imp
      (fun _ putsBack => ⟨_, tunes, .back inPool putsBack⟩)
      (fun _ refuses => ⟨_, p, tunes, inPool, refuses⟩)
      (fun _ _ => trivial)

theorem finishRequest_act (w : World) (c : Nat) (error : Option ErrorCode) :
    Runs (w.finishRequest c error) (fun next => ∃ r, Ends w c r next)
      (fun next => ∃ r, EndsBadly w c r next) := by
  cases active : (w.clients c).request with
  | none =>
      unfold finishRequest
      rw [active]
      exact Runs.fault
  | some r =>
      unfold finishRequest
      simp only [active]
      split
      · exact Runs.fault
      · refine Runs.before
          ((releaseClient_act _ c r _ _).imp (fun _ => id)
            (fun _ failed => ⟨r, active, failed⟩) (fun _ _ => trivial)) ?_
        rintro released ⟨middle, tunes, releases⟩
        exact Runs.next
          ⟨r, active, middle, released, tunes, releases, rfl⟩

theorem cancel_act (w : World) (c : Nat) (error : Option ErrorCode) :
    Runs (w.cancel c error) (Act w) (Mishap w) := by
  unfold cancel
  dsimp only
  split
  · exact Runs.next (.tunes (Tunes.refl w))
  · have dropped :=
      Tunes.setClient w c
        { w.clients c with
          parsing := none
          redirectCanceled :=
            (w.clients c).redirectCanceled || (w.clients c).inRedirect }
        rfl rfl rfl rfl (Or.inr rfl) (Or.inl rfl)
    exact (finishRequest_act _ c error).imp
      (fun _ ⟨_, ends⟩ => .ends dropped ends)
      (fun _ ⟨_, ends⟩ => .ends dropped ends)

/-- Cancelling a client with a request ends this request. -/
theorem cancel_ends
    {w : World}
    {c r : Nat}
    (error : Option ErrorCode)
    (active : (w.clients c).request = some r) :
    Runs (w.cancel c error)
      (fun next => ∃ middle, Tunes w middle ∧ Ends middle c r next)
      (fun next => ∃ middle, Tunes w middle ∧ EndsBadly middle c r next) := by
  unfold cancel
  dsimp only
  rw [if_neg (by simp [active])]
  have dropped :=
    Tunes.setClient w c
      { w.clients c with
        parsing := none
        redirectCanceled :=
          (w.clients c).redirectCanceled || (w.clients c).inRedirect }
      rfl rfl rfl rfl (Or.inr rfl) (Or.inl rfl)
  have same :
      ∀ s,
        ((w.setClient c
          { w.clients c with
            parsing := none
            redirectCanceled :=
              (w.clients c).redirectCanceled || (w.clients c).inRedirect
          }).clients c).request = some s →
        s = r := by
    intro s still
    simp only [World.setClient, Function.update_self, active,
      Option.some.injEq] at still
    exact still.symm
  refine (finishRequest_act _ c error).imp ?_ ?_
  · rintro next ⟨s, ends⟩
    exact ⟨_, dropped, same s ends.1 ▸ ends⟩
  · rintro next ⟨s, ends⟩
    exact ⟨_, dropped, same s ends.1 ▸ ends⟩

theorem Act.of_cancel
    {w middle : World}
    (c : Nat)
    (error : Option ErrorCode)
    (tunes : Tunes w middle) :
    Runs (middle.cancel c error) (Act w) (Mishap w) :=
  (cancel_act middle c error).imp (fun _ act => act.after tunes)
    fun _ mishap => mishap.after tunes

theorem cancelRequest_ends
    (w : World)
    (p r : Nat)
    (error : Option ErrorCode) :
    Runs (w.cancelRequest p r error)
      (fun next =>
        next = w.ending r ∧
          ∃ entry ∈ (w.pools p).clients (w.netloc r),
            r ∈ entry.queue.map Place.req)
      (fun _ => False) := by
  unfold cancelRequest
  dsimp only
  split
  · exact Runs.fault
  · rename_i entry present
    split
    · exact Runs.fault
    · rename_i place found
      have isRequest : place.req = r := by
        simpa using List.find?_some found
      refine Runs.andFrames (Runs.next ⟨rfl, entry, present, ?_⟩)
      exact List.mem_map.mpr
        ⟨place, List.mem_of_find?_eq_some found, isRequest⟩

theorem cancelRequest_act
    (w : World)
    (p r : Nat)
    (error : Option ErrorCode) :
    Runs (w.cancelRequest p r error) (Act w) (Mishap w) := by
  refine (cancelRequest_ends w p r error).imp ?_ (fun _ => False.elim)
  rintro next ⟨rfl, waits⟩
  exact .dequeues (Tunes.refl w) waits

/-! ## Following a redirect -/

theorem analyzeRequest_act (w : World) (c : Nat) :
    Runs (w.analyzeRequest c) (Act w) (Mishap w) := by
  unfold analyzeRequest
  dsimp only
  split
  · exact Runs.fault
  · exact Runs.fault
  · rename_i r response active _
    split
    · exact Runs.next (.tunes (Tunes.refl w))
    · split
      · split
        · exact Act.of_cancel c _ (Tunes.refl w)
        · have counted :
              Tunes w
                (w.setRequest r
                  { w.requests r with
                    redirectionCounter :=
                      ((w.requests r).redirectionCounter + 1) % 2 ^ 16 }) :=
            Tunes.setRequest w r _ rfl rfl rfl rfl (.refl _)
          split
          · exact Act.of_cancel c _ counted
          · split
            · exact Act.of_cancel c _ counted
            · rename_i location _
              have redirects :=
                Tunes.setRequest
                  (w.setRequest r
                    { w.requests r with
                      redirectionCounter :=
                        ((w.requests r).redirectionCounter + 1) % 2 ^ 16 }) r
                  (Request.redirectedTo
                    { w.requests r with
                      redirectionCounter :=
                        ((w.requests r).redirectionCounter + 1) % 2 ^ 16 }
                    location)
                  (by simp [World.setRequest, Request.redirectedTo])
                  (by simp [World.setRequest, Request.redirectedTo])
                  (by simp [World.setRequest, Request.redirectedTo])
                  (by simp [World.setRequest, Request.redirectedTo])
                  (by
                    simp only [World.setRequest, Function.update_self]
                    exact trims_redirectedTo _ location)
              exact Runs.next (.tunes ((counted.trans redirects).trans
                (Tunes.setClient _ c _ rfl rfl rfl rfl (Or.inl rfl)
                  (Or.inl rfl))))
      · refine (finishRequest_act w c none).imp ?_ ?_
        · rintro next ⟨s, ends⟩
          exact .ends (Tunes.refl w) ends
        · rintro next ⟨s, ends⟩
          exact .ends (Tunes.refl w) ends

/-- A redirected request leaves its client, which may lose its connection. -/
theorem hopping_eq (w : World) (c r : Nat) (response : Response) :
    w.hopping c r response =
      if response.keepAlive then w.leaving c r
      else (w.leaving c r).reset c := by
  unfold hopping leaving
  dsimp only
  split <;>
    simp [World.setRequest, World.reset, World.setTcp, World.setClient,
      World.detached, Request.cleanupAfterRedirect]

theorem hopping_tunes (w : World) (c r : Nat) (response : Response) :
    Tunes (w.leaving c r) (w.hopping c r response) := by
  rw [hopping_eq]
  split
  · exact Tunes.refl _
  · exact Tunes.reset _ c

theorem followRedirect_act
    {w before : World}
    {c r : Nat}
    (response : Response)
    (active : (w.clients c).request = some r)
    (tunes : Tunes before w) :
    (w.followRedirect c r response).Post (Follows w c r)
      (Mishap before) (fun _ => True) := by
  have hops := hopping_tunes w c r response
  have self :
      ((w.hopping c r response).clientRequest c r).Post (Follows w c r)
        (Mishap before) (fun _ => True) :=
    (clientRequest_post _ c r).imp
      (fun _ started => .same active hops started)
      (fun _ refused => .restarts tunes active hops refused)
      (fun _ _ => trivial)
  unfold followRedirect
  dsimp only
  split
  · exact self
  · rename_i p inPool
    split
    · have rests := hops.trans (Tunes.rested (w.hopping c r response) c)
      refine Straight.Post.andThen
        ((putback_post _ p c).imp (fun _ => id)
          (fun _ refuses => .leaves tunes active inPool rests refuses)
          (fun _ _ => trivial)) ?_
      intro released putsBack
      exact (poolRequest_post _ p r).imp
        (fun _ pooled => .pooled active inPool rests putsBack pooled.2)
        (fun _ refuses =>
          .pooled tunes active inPool rests putsBack (.of_post refuses))
        (fun _ _ => trivial)
    · exact self

theorem redirected_act (w : World) (c : Nat) :
    Runs (w.redirected c) (Act w) (Mishap w) := by
  unfold redirected
  dsimp only
  split
  · exact Runs.next (.tunes
      (Tunes.setClient w c _ rfl rfl rfl rfl (Or.inl rfl) (Or.inl rfl)))
  · have left :
        Tunes w (w.setClient c { w.clients c with inRedirect := false }) :=
      Tunes.setClient w c _ rfl rfl rfl rfl (Or.inl rfl) (Or.inl rfl)
    split
    · exact Runs.fault
    · exact Runs.fault
    · rename_i r response active _
      have stillActive :
          ((w.setClient c
            { w.clients c with inRedirect := false }).clients c).request =
            some r := by
        simpa [World.setClient] using active
      split
      · have rewritten :=
          Tunes.setRequest
            (w.setClient c { w.clients c with inRedirect := false }) r
            { (w.setClient c
                { w.clients c with inRedirect := false }).requests r with
              method := .get, body := [] }
            rfl rfl rfl rfl (.refl _)
        exact Runs.before
          (followRedirect_act response stillActive (left.trans rewritten))
          fun _ follows =>
            Runs.next (.follows (left.trans rewritten) follows)
      · exact Runs.before (followRedirect_act response stillActive left)
          fun _ follows => Runs.next (.follows left follows)

theorem redirectCatch_act (w : World) (c : Nat) :
    Runs (w.redirectCatch c) (Act w) (Mishap w) := by
  refine Runs.andFrames (Act.of_cancel c _ ?_)
  exact Tunes.setClient w c _ rfl rfl rfl rfl (Or.inl rfl) (Or.inl rfl)

/-! ## Receiving -/

theorem receivePart_tunes (w : World) (c : Nat) (response : Response) :
    Runs (w.receivePart c response) (Tunes w) (fun _ => False) := by
  unfold receivePart
  split
  · exact Runs.next (Tunes.refl w)
  · split
    · exact Runs.fault
    · split <;> exact Runs.next (Tunes.refl w)

/-- `on_read` drops the connection, or acts after a part of the buffer. -/
theorem onReadLoop_act
    (w : World)
    (c buffer : Nat)
    (result : Parsed)
    (rest : List Parsed) :
    Runs (w.onReadLoop c buffer (result :: rest))
      (fun next =>
        (w.clients c).parsing = none ∧ Tunes w next ∨
          ∃ context,
            (w.clients c).parsing = some context ∧
              Act (w.parseShift c buffer context result) next)
      (fun next =>
        ∃ context,
          (w.clients c).parsing = some context ∧
            Mishap (w.parseShift c buffer context result) next) := by
  simp only [onReadLoop]
  split
  · rename_i noContext
    exact Runs.next (Or.inl ⟨noContext, Tunes.reset w c⟩)
  · rename_i context hasContext
    have parsed :
        ∀ {step : Step},
          Runs step (Act (w.parseShift c buffer context result))
            (Mishap (w.parseShift c buffer context result)) →
          Runs step
            (fun next =>
              (w.clients c).parsing = none ∧ Tunes w next ∨
                ∃ context,
                  (w.clients c).parsing = some context ∧
                    Act (w.parseShift c buffer context result) next)
            (fun next =>
              ∃ context,
                (w.clients c).parsing = some context ∧
                  Mishap (w.parseShift c buffer context result) next) :=
      fun runs =>
        runs.imp (fun _ act => Or.inr ⟨context, hasContext, act⟩)
          fun _ mishap => ⟨context, hasContext, mishap⟩
    cases result with
    | error error _ =>
        exact parsed (cancel_act _ c _)
    | headers =>
        exact parsed (Runs.next (.tunes (Tunes.refl _)))
    | body _ =>
        exact parsed ((receivePart_tunes _ c _).imp (fun _ => .tunes)
          fun _ => False.elim)
    | done _ =>
        exact parsed (Runs.andFrames (analyzeRequest_act _ c))

theorem onEof_act
    (w : World)
    (c : Nat)
    (error : Option ErrorCode)
    (response : Response) :
    Runs (w.onEof c error response) (Act w) (Mishap w) := by
  unfold onEof
  dsimp only
  split
  · exact Runs.next (.tunes (Tunes.reset w c))
  · exact Runs.fault
  · have ended := Tunes.setClient w c
      { w.clients c with
        response := some { response with isDone := true }, parsing := none }
      rfl rfl rfl rfl (Or.inr rfl) (Or.inl rfl)
    split
    · exact Act.of_cancel c _ ended
    · exact (analyzeRequest_act _ c).imp (fun _ act => act.after ended)
        fun _ mishap => mishap.after ended

theorem formFileComplete_act
    (w : World)
    (c : Nat)
    (error : Option ErrorCode) :
    Runs (w.formFileComplete c error) (Act w) (Mishap w) := by
  unfold formFileComplete
  split
  · exact (finishRequest_act w c _).imp
      (fun _ ⟨_, ends⟩ => .ends (Tunes.refl w) ends)
      (fun _ ⟨_, ends⟩ => .ends (Tunes.refl w) ends)
  · have counted := Tunes.setClient w c
      { w.clients c with formField := (w.clients c).formField + 1 }
      rfl rfl rfl rfl (Or.inl rfl) (Or.inl rfl)
    dsimp only
    generalize w.setClient c
      { w.clients c with formField := (w.clients c).formField + 1 } = next
      at counted
    cases active : (next.clients c).request with
    | none =>
        simp only [sendForm, active]
        exact Runs.fault
    | some r =>
        exact Runs.before
          ((sendForm_post next c r active).imp
            (fun _ sends => counted.trans (Tunes.of_sends sends))
            (fun _ => False.elim) (fun _ _ => trivial))
          fun _ tunes => Runs.next (.tunes tunes)

/-! ## Frames and entry points -/

/-- Frames of `on_read` and of a return to a queue, which have acts of their own. -/
def isPlainFrame : Frame → Bool
  | .onRead _ _ _ => false
  | .cancelReturn _ _ _ _ => false
  | _ => true

theorem code_act
    (w : World)
    (frame : Frame)
    (plain : isPlainFrame frame = true) :
    Runs (code frame w) (Act w) (Mishap w) := by
  cases frame with
  | callback callback =>
      exact Runs.next (.tunes (Tunes.refl w))
  | fire callback =>
      exact Runs.next (.tunes (Tunes.emit w rfl))
  | agentResponse a r response error =>
      refine Runs.next (.tunes ?_)
      unfold agentResponse
      split
      · exact Tunes.refl w
      · exact Tunes.collect w _ _ _
  | agentRedirect a contextUri topLevel c context =>
      obtain ⟨reason, _, faults⟩ | ⟨response, r, _, _, acts⟩ :=
        code_agentRedirect w a contextUri topLevel c context
      · rw [faults]
        exact Runs.fault
      · rw [acts]
        exact Runs.next (.tunes
          ((Tunes.collect w a response.cookies context.uri).trans
            (Tunes.inject _ a r contextUri topLevel _)))
  | continued c =>
      exact Runs.next (.tunes
        (Tunes.setClient w c _ rfl rfl rfl rfl (Or.inl rfl) (Or.inl rfl)))
  | redirected c =>
      exact redirected_act w c
  | redirectCatch c =>
      exact redirectCatch_act w c
  | rethrow =>
      exact Runs.raise (.tunes (Tunes.refl w))
  | onRead _ _ _ | cancelReturn _ _ _ _ =>
      cases plain

/-- Calls and events that submit nothing and need no further state. -/
def isPlainInput : Input → Bool
  | .listen _ => true
  | .cancel _ _ => true
  | .clientCancel _ _ => true
  | .sendChunk _ _ => true
  | .sendFinalChunk _ _ => true
  | .onConnect _ _ => true
  | .onWrite _ _ => true
  | .onReadError _ _ => true
  | .onEof _ _ _ => true
  | .streamData _ _ _ => true
  | .streamFinish _ _ _ => true
  | _ => false

theorem requestSend_tunes
    {w : World}
    (r : Nat)
    {send : Nat → Step}
    (sends : ∀ c, Runs (send c) (Tunes w) (Tunes w)) :
    Runs (w.requestSend r send) (Tunes w) (Tunes w) := by
  unfold requestSend
  dsimp only
  split
  · exact Runs.raise (Tunes.emit w rfl)
  · split
    · exact Runs.raise (Tunes.emit w rfl)
    · split
      · exact sends _
      · exact Runs.fault

theorem sendChunk_tunes (w : World) (r : Nat) (data : Data) :
    Runs (w.sendChunk r data) (Tunes w) (Tunes w) := by
  refine requestSend_tunes r fun c => ?_
  split
  · exact Runs.next (Tunes.refl w)
  · exact Runs.next (Tunes.write w c _ (by simp))

theorem sendFinalChunk_tunes (w : World) (r : Nat) (data : Data) :
    Runs (w.sendFinalChunk r data) (Tunes w) (Tunes w) := by
  refine requestSend_tunes r fun c => Runs.next ?_
  refine Tunes.trans ?_ (Tunes.write _ c _ (by simp))
  exact Tunes.setRequest w r _ rfl rfl rfl rfl (.refl _)

/-- `UserAgent::request` up to `Pool::request`. -/
theorem agentRequest_tunes
    (w : World)
    (a r : Nat)
    (contextUri : Uri)
    (topLevel : Bool) :
    w.agentRequest a r contextUri topLevel = .fault .nullUri ∨
      ∃ next,
        Tunes w next ∧
          w.agentRequest a r contextUri topLevel =
            next.poolRequest (w.agents a).pool r := by
  unfold agentRequest
  dsimp only
  split
  · exact Or.inl rfl
  · refine Or.inr ⟨_, ?_, rfl⟩
    refine Tunes.trans ?_ (Tunes.inject _ a r contextUri topLevel _)
    exact Tunes.setRequest w r _ rfl rfl rfl rfl (.refl _)

theorem onTimer_act (w : World) (r : Nat) :
    Runs (w.onTimer r) (Act w) (Mishap w) := by
  unfold onTimer
  dsimp only
  split
  · exact cancel_act w _ _
  · exact cancelRequest_act w _ r _
  · exact Runs.next (.tunes (Tunes.refl w))

theorem accept_act
    {w : World}
    {input : Input}
    {top : Option Frame}
    {outcome : Step}
    (plain : isPlainInput input = true)
    (accepted : accept input top w = some outcome) :
    Runs outcome (Act w) (Mishap w) := by
  cases input with
  | listen r =>
      cases top <;> simp only [accept, reduceCtorEq] at accepted
      cases accepted
      exact Runs.next (.tunes (Tunes.setRequest w r _ rfl rfl rfl rfl (.refl _)))
  | cancel r error =>
      cases accepted
      unfold requestCancel
      dsimp only
      split
      · exact cancel_act w _ error
      · exact cancelRequest_act w _ r error
      · exact Runs.next (.tunes (Tunes.refl w))
  | clientCancel c error =>
      cases accepted
      exact cancel_act w c error
  | sendChunk r data =>
      cases accepted
      exact (sendChunk_tunes w r data).imp (fun _ => .tunes) fun _ => .tunes
  | sendFinalChunk r data =>
      cases accepted
      exact (sendFinalChunk_tunes w r data).imp (fun _ => .tunes)
        fun _ => .tunes
  | onConnect c error =>
      cases top <;> simp only [accept, reduceCtorEq] at accepted
      split at accepted
      · cases error with
        | none =>
            cases accepted
            exact Runs.next (.tunes (Tunes.setTcp w c _ (Or.inl rfl)))
        | some error =>
            cases accepted
            exact Act.of_cancel c _ (Tunes.setTcp w c _ (Or.inr rfl))
      · cases accepted
  | onWrite c error =>
      cases top <;> simp only [accept, reduceCtorEq] at accepted
      split at accepted
      · cases error with
        | none =>
            cases accepted
            exact Runs.next (.tunes (Tunes.setTcp w c _ (Or.inl rfl)))
        | some error =>
            cases accepted
            exact Act.of_cancel c _ (Tunes.setTcp w c _ (Or.inl rfl))
      · cases accepted
  | onReadError c error =>
      cases top <;> simp only [accept, reduceCtorEq] at accepted
      split at accepted <;> cases accepted
      exact cancel_act w c _
  | onEof c error response =>
      cases top <;> simp only [accept, reduceCtorEq] at accepted
      split at accepted <;> cases accepted
      have ended : ∀ connection,
          Tunes w
            ((w.setTcp c
              { (w.clients c).tcp with
                eof := true
                status :=
                  if w.config.eofDisconnects then .ended else .connected
              }).emit (.ended c connection)) := by
        intro connection
        refine Tunes.trans ?_ (Tunes.emit _ rfl)
        exact Tunes.setTcp w c _ (Or.inl rfl)
      exact (onEof_act _ c error response).imp
        (fun _ act => act.after (ended _))
        fun _ mishap => mishap.after (ended _)
  | streamData r item data =>
      cases top <;> simp only [accept, reduceCtorEq] at accepted
      split at accepted <;> cases accepted
      exact Runs.next (.tunes (Tunes.write w _ _ (by simp)))
  | streamFinish r item error =>
      cases top <;> simp only [accept, reduceCtorEq] at accepted
      split at accepted <;> cases accepted
      have stops :
          Tunes w
            (w.setRequest r
              { w.requests r with
                streaming := Function.update (w.requests r).streaming item
                  { (w.requests r).streaming item with running := false } }) :=
        Tunes.setRequest w r _ rfl rfl rfl rfl (.refl _)
      exact (formFileComplete_act _ _ error).imp (fun _ act => act.after stops)
        fun _ mishap => mishap.after stops
  | _ =>
      cases plain

end UniEventHttp.ClientSide.World
