import UniEventHttp.ClientErrors
import UniEventHttp.ClientRedirect

namespace UniEventHttp.ClientSide.World

/-!
# Steps of the clients and the redirects

What the steps do to the requests of the clients, to the flags with which a
client follows a redirect and to the counters of redirects.  A request leaves its
client only by an end, a cancellation or a redirect; everything else keeps it.
-/

/-! ## Straight code -/

/-- The end of a submission, its acceptance, and the event of a redirect. -/
def isTurning : Event → Bool
  | .finished _ => true
  | .accepted _ _ _ _ _ => true
  | .fired (.redirectEvent _ _ _ _) => true
  | _ => false

/-- Streams, forms and the state of the parser change, and observations are made. -/
structure Adjusts (w next : World) : Prop where
  config : next.config = w.config
  verifyContext : next.verifyContext = w.verifyContext
  pools : next.pools = w.pools
  nextClient : next.nextClient = w.nextClient
  request : ∀ c, (next.clients c).request = (w.clients c).request
  inRedirect : ∀ c, (next.clients c).inRedirect = (w.clients c).inRedirect
  canceled :
    ∀ c, (next.clients c).redirectCanceled = (w.clients c).redirectCanceled
  pool : ∀ c, (next.clients c).pool = (w.clients c).pool
  netloc : ∀ c, (next.clients c).netloc = (w.clients c).netloc
  link : ∀ r, (next.requests r).client = (w.requests r).client
  counter :
    ∀ r,
      (next.requests r).redirectionCounter = (w.requests r).redirectionCounter
  fields :
    ∀ r, (next.requests r).toRequestFields = (w.requests r).toRequestFields
  trace :
    ∃ events,
      next.trace = w.trace ++ events ∧
        ∀ event ∈ events, isTurning event = false

namespace Adjusts

variable {w next third : World}

theorem refl (w : World) : Adjusts w w :=
  ⟨rfl, rfl, rfl, rfl, fun _ => rfl, fun _ => rfl, fun _ => rfl, fun _ => rfl,
    fun _ => rfl, fun _ => rfl, fun _ => rfl, fun _ => rfl, [], by simp, by simp⟩

theorem trans
    (one : Adjusts w next)
    (two : Adjusts next third) :
    Adjusts w third where
  config := two.config.trans one.config
  verifyContext := two.verifyContext.trans one.verifyContext
  pools := two.pools.trans one.pools
  nextClient := two.nextClient.trans one.nextClient
  request c := (two.request c).trans (one.request c)
  inRedirect c := (two.inRedirect c).trans (one.inRedirect c)
  canceled c := (two.canceled c).trans (one.canceled c)
  pool c := (two.pool c).trans (one.pool c)
  netloc c := (two.netloc c).trans (one.netloc c)
  link r := (two.link r).trans (one.link r)
  counter r := (two.counter r).trans (one.counter r)
  fields r := (two.fields r).trans (one.fields r)
  trace := by
    obtain ⟨first, traceOne, keptOne⟩ := one.trace
    obtain ⟨second, traceTwo, keptTwo⟩ := two.trace
    refine ⟨first ++ second, by rw [traceTwo, traceOne, List.append_assoc], ?_⟩
    intro event member
    exact (List.mem_append.mp member).elim (keptOne event) (keptTwo event)

theorem emit
    (w : World)
    {event : Event}
    (kept : isTurning event = false) :
    Adjusts w (w.emit event) :=
  ⟨rfl, rfl, rfl, rfl, fun _ => rfl, fun _ => rfl, fun _ => rfl, fun _ => rfl,
    fun _ => rfl, fun _ => rfl, fun _ => rfl, fun _ => rfl, [event], rfl,
    by simpa⟩

/-- What the relation says of a client. -/
structure Client (old new : ClientSide.Client) : Prop where
  request : new.request = old.request
  inRedirect : new.inRedirect = old.inRedirect
  canceled : new.redirectCanceled = old.redirectCanceled
  pool : new.pool = old.pool
  netloc : new.netloc = old.netloc

theorem setClient
    (w : World)
    (c : Nat)
    {client : ClientSide.Client}
    (same : Client (w.clients c) client) :
    Adjusts w (w.setClient c client) := by
  have all : ∀ d, Client (w.clients d) ((w.setClient c client).clients d) := by
    intro d
    by_cases here : d = c
    · subst d
      simpa [World.setClient] using same
    · simp only [World.setClient, ne_eq, here, not_false_eq_true,
        Function.update_of_ne]
      exact ⟨rfl, rfl, rfl, rfl, rfl⟩
  exact ⟨rfl, rfl, rfl, rfl, fun d => (all d).request, fun d => (all d).inRedirect,
    fun d => (all d).canceled, fun d => (all d).pool, fun d => (all d).netloc,
    fun _ => rfl, fun _ => rfl, fun _ => rfl, [], by simp [World.setClient],
    by simp⟩

theorem setTcp (w : World) (c : Nat) (tcp : Tcp) : Adjusts w (w.setTcp c tcp) :=
  setClient w c ⟨rfl, rfl, rfl, rfl, rfl⟩

theorem reset (w : World) (c : Nat) : Adjusts w (w.reset c) :=
  setTcp w c _

theorem weak (w : World) (c : Nat) (value : Bool) :
    Adjusts w (w.weak c value) :=
  setTcp w c _

theorem rested (w : World) (c : Nat) : Adjusts w (w.rested c) :=
  setClient w c ⟨rfl, rfl, rfl, rfl, rfl⟩

theorem setRequest
    (w : World)
    (r : Nat)
    {request : Request}
    (link : request.client = (w.requests r).client)
    (counter :
      request.redirectionCounter = (w.requests r).redirectionCounter)
    (fields : request.toRequestFields = (w.requests r).toRequestFields) :
    Adjusts w (w.setRequest r request) := by
  have all :
      ∀ s,
        ((w.setRequest r request).requests s).client = (w.requests s).client ∧
          ((w.setRequest r request).requests s).redirectionCounter =
            (w.requests s).redirectionCounter ∧
          ((w.setRequest r request).requests s).toRequestFields =
            (w.requests s).toRequestFields := by
    intro s
    by_cases here : s = r
    · subst s
      simpa [World.setRequest] using ⟨link, counter, fields⟩
    · simp [World.setRequest, here]
  exact ⟨rfl, rfl, rfl, rfl, fun _ => rfl, fun _ => rfl, fun _ => rfl,
    fun _ => rfl, fun _ => rfl, fun s => (all s).1, fun s => (all s).2.1,
    fun s => (all s).2.2, [], by simp [World.setRequest], by simp⟩

theorem write (w : World) (c : Nat) (piece : Piece) :
    Adjusts w (w.write c piece) := by
  unfold World.write
  dsimp only
  split
  · exact setTcp w c _
  · exact (setTcp w c _).trans (emit _ rfl)

theorem of_sends
    {c r : Nat}
    (sends : Sends w c r next) :
    Adjusts w next := by
  obtain ⟨field, queue, streaming, completed, pieces, rfl, body⟩ := sends
  refine ⟨rfl, rfl, rfl, rfl, ?_, ?_, ?_, ?_, ?_, ?_, ?_, ?_, _, rfl, ?_⟩
  iterate 5
    intro d
    by_cases same : d = c <;> simp [sent, same]
  iterate 3
    intro s
    by_cases same : s = r <;> simp [sent, same]
  intro event member
  simp only [wroteOn, List.mem_flatMap, List.mem_map] at member
  obtain ⟨_, _, _, _, rfl⟩ := member
  rfl

theorem stopForm (w : World) (c r : Nat) :
    (w.stopForm c r).Post (Adjusts w) (fun _ => False) (fun _ => True) := by
  have stopped :
      ∀ middle : World,
        Adjusts middle
          (middle.setClient c { middle.clients c with formField := -1 }) :=
    fun middle => setClient middle c ⟨rfl, rfl, rfl, rfl, rfl⟩
  unfold World.stopForm
  dsimp only
  split
  · exact refl w
  · split
    · trivial
    · split
      · trivial
      · refine Adjusts.trans ?_ (stopped _)
        exact setRequest w r rfl rfl rfl
    · exact stopped w

end Adjusts

/--
No request leaves its client and no redirect begins or ends.  Idle clients may be
given requests, and new clients may be made.
-/
structure Keeps (w next : World) : Prop where
  nextClient : w.nextClient ≤ next.nextClient
  stays :
    ∀ c r,
      c < w.nextClient →
      (w.clients c).request = some r →
      (next.clients c).request = some r
  begun :
    ∀ c r,
      (next.clients c).request = some r →
      (w.clients c).request = some r ∨
        (w.requests r).client = none ∧ (next.requests r).client = some c
  link :
    ∀ r c,
      (w.requests r).client = some c → (next.requests r).client = some c
  inRedirect :
    ∀ c,
      (next.clients c).inRedirect = (w.clients c).inRedirect ∨
        w.nextClient ≤ c ∧ (next.clients c).inRedirect = false
  canceled :
    ∀ c,
      (next.clients c).redirectCanceled = (w.clients c).redirectCanceled ∨
        w.nextClient ≤ c ∧ (next.clients c).redirectCanceled = false
  counter :
    ∀ r,
      (next.requests r).redirectionCounter = (w.requests r).redirectionCounter
  trace :
    ∃ events,
      next.trace = w.trace ++ events ∧
        ∀ event ∈ events, isTurning event = false

theorem Adjusts.keeps
    {w next : World}
    (adjusts : Adjusts w next) :
    Keeps w next where
  nextClient := adjusts.nextClient.ge
  stays c _ _ active := (adjusts.request c).trans active
  begun c _ active := Or.inl ((adjusts.request c).symm.trans active)
  link r _ linked := (adjusts.link r).trans linked
  inRedirect c := Or.inl (adjusts.inRedirect c)
  canceled c := Or.inl (adjusts.canceled c)
  counter := adjusts.counter
  trace := adjusts.trace

namespace Keeps

variable {w next third : World}

theorem refl (w : World) : Keeps w w :=
  (Adjusts.refl w).keeps

theorem trans
    (one : Keeps w next)
    (two : Keeps next third) :
    Keeps w third where
  nextClient := one.nextClient.trans two.nextClient
  stays c r known active :=
    two.stays c r (known.trans_le one.nextClient) (one.stays c r known active)
  begun c r active := by
    rcases two.begun c r active with before | ⟨unlinked, linked⟩
    · rcases one.begun c r before with early | ⟨free, linked⟩
      · exact Or.inl early
      · exact Or.inr ⟨free, two.link r c linked⟩
    · cases early : (w.requests r).client with
      | none =>
          exact Or.inr ⟨rfl, linked⟩
      | some d =>
          rw [one.link r d early] at unlinked
          cases unlinked
  link r c linked := two.link r c (one.link r c linked)
  inRedirect c := by
    rcases two.inRedirect c with same | ⟨new, off⟩
    · rw [same]
      exact one.inRedirect c
    · exact Or.inr ⟨one.nextClient.trans new, off⟩
  canceled c := by
    rcases two.canceled c with same | ⟨new, off⟩
    · rw [same]
      exact one.canceled c
    · exact Or.inr ⟨one.nextClient.trans new, off⟩
  counter r := (two.counter r).trans (one.counter r)
  trace := by
    obtain ⟨first, traceOne, keptOne⟩ := one.trace
    obtain ⟨second, traceTwo, keptTwo⟩ := two.trace
    refine ⟨first ++ second, by rw [traceTwo, traceOne, List.append_assoc], ?_⟩
    intro event member
    exact (List.mem_append.mp member).elim (keptOne event) (keptTwo event)

/-- The public members, the timer and the listeners of a request are changed. -/
theorem setRequest
    (w : World)
    (r : Nat)
    {request : Request}
    (link : request.client = (w.requests r).client)
    (counter :
      request.redirectionCounter = (w.requests r).redirectionCounter) :
    Keeps w (w.setRequest r request) := by
  have all :
      ∀ s,
        ((w.setRequest r request).requests s).client = (w.requests s).client ∧
          ((w.setRequest r request).requests s).redirectionCounter =
            (w.requests s).redirectionCounter := by
    intro s
    by_cases here : s = r
    · subst s
      simpa [World.setRequest] using ⟨link, counter⟩
    · simp [World.setRequest, here]
  exact ⟨le_rfl, fun _ _ _ => id, fun _ _ => Or.inl,
    fun s _ linked => (all s).1.trans linked, fun _ => Or.inl rfl,
    fun _ => Or.inl rfl, fun s => (all s).2, [], by simp [World.setRequest],
    by simp⟩

/-- The lists of the pools, the agents and the clocks do not matter. -/
theorem same
    (nextClient : next.nextClient = w.nextClient)
    (clients : next.clients = w.clients)
    (requests : next.requests = w.requests)
    (trace :
      ∃ events,
        next.trace = w.trace ++ events ∧
          ∀ event ∈ events, isTurning event = false) :
    Keeps w next where
  nextClient := nextClient.ge
  stays c r _ active := by rwa [clients]
  begun c r active := by
    rw [clients] at active
    exact Or.inl active
  link r c linked := by rwa [requests]
  inRedirect c := by simp [clients]
  canceled c := by simp [clients]
  counter r := by rw [requests]
  trace := trace

theorem setEntry
    (w : World)
    (p : Nat)
    (key : NetLoc)
    (entry : Option NetLocList) :
    Keeps w (w.setEntry p key entry) :=
  same rfl rfl rfl ⟨[], by simp [World.setEntry], by simp⟩

theorem newClient (w : World) (loop : Nat) (pool : Option Nat) :
    Keeps w (w.newClient loop pool) := by
  have others :
      ∀ c, c ≠ w.nextClient →
        (w.newClient loop pool).clients c = w.clients c :=
    fun c other => by simp [World.newClient, setClient, other]
  have made :
      (w.newClient loop pool).clients w.nextClient =
        { loop := loop, pool := pool } := by
    simp [World.newClient, setClient]
  refine ⟨Nat.le_succ _, ?_, ?_, fun _ _ => id, ?_, ?_, fun _ => rfl, [],
    by simp [World.newClient, setClient], by simp⟩
  · intro c r known active
    rwa [others c known.ne]
  · intro c r active
    by_cases new : c = w.nextClient
    · subst c
      rw [made] at active
      cases active
    · rw [others c new] at active
      exact Or.inl active
  · intro c
    by_cases new : c = w.nextClient
    · subst c
      rw [made]
      exact Or.inr ⟨le_rfl, rfl⟩
    · rw [others c new]
      exact Or.inl rfl
  · intro c
    by_cases new : c = w.nextClient
    · subst c
      rw [made]
      exact Or.inr ⟨le_rfl, rfl⟩
    · rw [others c new]
      exact Or.inl rfl

theorem started
    {c r : Nat}
    (started : Started w c r next) :
    Keeps w next := by
  obtain ⟨tcp, opening, pieces, connects, _, _, trace, _⟩ := started.connects
  have client := started.client
  have request := started.request
  refine ⟨started.nextClient.ge, ?_, ?_, ?_, ?_, ?_, ?_, _,
    by rw [trace, List.append_assoc], ?_⟩
  · intro d s _ active
    have other : d ≠ c := by
      rintro rfl
      rw [started.idle] at active
      cases active
    rwa [started.clients d other]
  · intro d s active
    by_cases here : d = c
    · subst d
      rw [client] at active
      cases active
      exact Or.inr ⟨started.unlinked, by rw [request]⟩
    · rw [started.clients d here] at active
      exact Or.inl active
  · intro s d linked
    have other : s ≠ r := by
      rintro rfl
      rw [started.unlinked] at linked
      cases linked
    rwa [started.requests s other]
  · intro d
    by_cases here : d = c
    · subst d
      rw [client]
      exact Or.inl rfl
    · rw [started.clients d here]
      exact Or.inl rfl
  · intro d
    by_cases here : d = c
    · subst d
      rw [client]
      exact Or.inl rfl
    · rw [started.clients d here]
      exact Or.inl rfl
  · intro s
    by_cases here : s = r
    · subst s
      rw [request]
    · rw [started.requests s here]
  · intro event member
    simp only [wroteOn, List.mem_append, List.mem_cons, List.mem_flatMap,
      List.mem_map] at member
    rcases member with isOpening | rfl | ⟨_, _, rfl⟩ | ⟨_, _, _, _, rfl⟩
    · cases connects with
      | reuses _ _ _ =>
          cases isOpening
      | opens _ _ _ _ _ _ =>
          rw [List.mem_singleton] at isOpening
          subst isOpening
          rfl
    · rfl
    · rfl
    · rfl

theorem refused
    {c r : Nat}
    (refused : Refused w c r next) :
    Keeps w next := by
  obtain ⟨exception, trace⟩ := refused.trace
  obtain ⟨tcp, client⟩ := refused.client
  have clients :
      ∀ d, ∃ tcp, next.clients d = { w.clients d with tcp := tcp } := by
    intro d
    by_cases here : d = c
    · subst d
      exact ⟨tcp, client⟩
    · exact ⟨(w.clients d).tcp, by rw [refused.clients d here]⟩
  have requests :
      ∀ s,
        (∀ d, (w.requests s).client = some d →
            (next.requests s).client = some d) ∧
          (next.requests s).redirectionCounter =
            (w.requests s).redirectionCounter := by
    intro s
    by_cases here : s = r
    · subst s
      rcases refused.request with kept | ⟨_, unlinked, _, linked, _⟩
      · rw [kept]
        exact ⟨fun _ => id, rfl⟩
      · rw [linked, unlinked]
        exact ⟨fun _ isSome => (Option.some_ne_none _ isSome.symm).elim, rfl⟩
    · rw [refused.requests s here]
      exact ⟨fun _ => id, rfl⟩
  refine ⟨refused.nextClient.ge, ?_, ?_, fun s d => (requests s).1 d, ?_, ?_,
    fun s => (requests s).2, _, trace, by simp [isTurning]⟩
  · intro d s _ active
    obtain ⟨tcp, same⟩ := clients d
    rwa [same]
  · intro d s active
    obtain ⟨tcp, same⟩ := clients d
    rw [same] at active
    exact Or.inl active
  · intro d
    obtain ⟨tcp, same⟩ := clients d
    rw [same]
    exact Or.inl rfl
  · intro d
    obtain ⟨tcp, same⟩ := clients d
    rw [same]
    exact Or.inl rfl

theorem putsBack
    {p c : Nat}
    (back : PutsBack w p c next) :
    Keeps w next := by
  cases back with
  | starts _ _ begun =>
      exact (setEntry w p _ _).trans (started begun)
  | frees _ _ _ =>
      exact setEntry w p _ _

theorem refusesNext
    {p c : Nat}
    (refuses : RefusesNext w p c next) :
    Keeps w next := by
  obtain ⟨entry, place, rest, _, _, isRefused⟩ := refuses
  exact (setEntry w p _ _).trans (refused isRefused)

theorem places
    {p c : Nat}
    {key : NetLoc}
    (found : Places w p key c next) :
    Keeps w next := by
  cases found with
  | creates _ =>
      exact (newClient w _ _).trans (setEntry _ p key _)
  | reuses _ _ =>
      exact setEntry w p key _

theorem pooled
    {p r : Nat}
    (pooled : Pooled w p r next) :
    Keeps w next := by
  cases pooled with
  | starts found begun =>
      exact (places found).trans (started begun)
  | @queues entry _ _ _ =>
      have entered :=
        setEntry w p (w.netloc r)
          (some
            { entry with
              queue := entry.queue ++ [{ ticket := entry.nextTicket, req := r }]
              generation := entry.generation + 1
              nextTicket := entry.nextTicket + 1 })
      unfold World.enqueue
      dsimp only
      refine Keeps.trans ?_ (Adjusts.emit _ rfl).keeps
      refine entered.trans (setRequest _ r ?_ ?_) <;>
        · unfold Request.ensureTimerActive
          split <;> rfl

theorem poolRefuses
    {p r : Nat}
    (refuses : PoolRefuses w p r next) :
    Keeps w next := by
  cases refuses with
  | early exception =>
      exact (Adjusts.emit w rfl).keeps
  | late isPooled found isRefused =>
      subst isPooled
      have owned :
          Keeps w (w.setRequest r { w.requests r with pool := some p }) :=
        setRequest w r rfl rfl
      exact (owned.trans (places found)).trans (refused isRefused)

theorem collect (w : World) (a : Nat) (cookies : Cookies) (uri : Uri) :
    Keeps w (w.collect a cookies uri) :=
  same rfl rfl rfl ⟨[.collected a cookies uri], rfl, by simp [isTurning]⟩

theorem inject
    (w : World)
    (a r : Nat)
    (contextUri : Uri)
    (topLevel : Bool)
    (time : Nat) :
    Keeps w (w.inject a r contextUri topLevel time) := by
  unfold World.inject
  refine Keeps.trans ?_ (Adjusts.emit _ rfl).keeps
  exact setRequest w r rfl rfl

end Keeps

theorem poolRequest_keeps (w : World) (p r : Nat) :
    (w.poolRequest p r).Post (Keeps w) (Keeps w) (fun _ => True) := by
  refine (poolRequest_post w p r).imp ?_ ?_ (fun _ _ => trivial)
  · rintro next ⟨_, pooled⟩
    have owned : Keeps w (w.setRequest r { w.requests r with pool := some p }) :=
      Keeps.setRequest w r rfl rfl
    exact owned.trans (Keeps.pooled pooled)
  · exact fun next refuses => Keeps.poolRefuses (.of_post refuses)

theorem agentRequest_keeps
    (w : World)
    (a r : Nat)
    (contextUri : Uri)
    (topLevel : Bool) :
    (w.agentRequest a r contextUri topLevel).Post (Keeps w) (Keeps w)
      (fun _ => True) := by
  unfold agentRequest
  dsimp only
  split
  · trivial
  · have listens :
        Keeps w
          (w.setRequest r
            { w.requests r with
              responseListeners :=
                (w.requests r).responseListeners ++
                  [.agent a contextUri topLevel]
              redirectListeners :=
                (w.requests r).redirectListeners ++
                  [.agent a contextUri topLevel] }) :=
      Keeps.setRequest w r rfl rfl
    have injected :=
      listens.trans (Keeps.inject _ a r contextUri topLevel (w.agentNow a))
    exact (poolRequest_keeps _ _ r).imp (fun _ => injected.trans)
      (fun _ => injected.trans) (fun _ _ => trivial)

/-! ## The end of a request -/

/-- The first request that waits where a client is connected to can be started. -/
def NextStarts (w : World) (c : Nat) : Prop :=
  ∀ p ∈ (w.clients c).pool,
    ∀ entry ∈ (w.pools p).clients (w.clients c).netloc,
      ∀ place ∈ entry.queue.head?,
        (w.requests place.req).client = none ∧
          (w.requests place.req).check = none ∧
          ¬ w.RefusesSetup (w.requests place.req).toRequestFields.withScheme

instance (w : World) (c : Nat) : Decidable (w.NextStarts c) := by
  unfold NextStarts
  infer_instance

theorem NextStarts.congr
    {w next : World}
    {c : Nat}
    (config : next.config = w.config)
    (verifyContext : next.verifyContext = w.verifyContext)
    (pools : next.pools = w.pools)
    (pool : (next.clients c).pool = (w.clients c).pool)
    (netloc : (next.clients c).netloc = (w.clients c).netloc)
    (link : ∀ r, (next.requests r).client = (w.requests r).client)
    (fields :
      ∀ r, (next.requests r).toRequestFields = (w.requests r).toRequestFields)
    (starts : w.NextStarts c) :
    next.NextStarts c := by
  intro p inPool entry present place isFirst
  rw [pool] at inPool
  rw [pools, netloc] at present
  obtain ⟨unlinked, checked, sets⟩ := starts p inPool entry present place isFirst
  have uri := congrArg RequestFields.uri (fields place.req)
  refine ⟨(link _).trans unlinked, ?_, ?_⟩
  · unfold Request.check at checked ⊢
    rw [uri]
    exact checked
  · rw [refusesSetup_congr config verifyContext, fields]
    exact sets

theorem Adjusts.nextStarts
    {w next : World}
    {c : Nat}
    (adjusts : Adjusts w next)
    (starts : w.NextStarts c) :
    next.NextStarts c :=
  starts.congr adjusts.config adjusts.verifyContext adjusts.pools (adjusts.pool c) (adjusts.netloc c)
    adjusts.link adjusts.fields

theorem NextStarts.setClient
    {w : World}
    {c : Nat}
    {client : ClientSide.Client}
    (starts : w.NextStarts c)
    (pool : client.pool = (w.clients c).pool)
    (netloc : client.netloc = (w.clients c).netloc) :
    (w.setClient c client).NextStarts c :=
  NextStarts.congr (w := w) rfl rfl rfl (by simpa [World.setClient] using pool)
    (by simpa [World.setClient] using netloc) (fun _ => rfl) (fun _ => rfl) starts

/-- An idle client that goes back to its pool refuses what could not be started. -/
theorem putback_raises
    {w next : World}
    {p c : Nat}
    (idle : (w.clients c).request = none)
    (inPool : (w.clients c).pool = some p)
    (raised : w.putback p c = .raise next) :
    ¬ w.NextStarts c := by
  intro starts
  unfold putback at raised
  dsimp only at raised
  split at raised
  · cases raised
  · rename_i entry present
    split at raised
    · rename_i place rest queued
      obtain ⟨unlinked, checked, sets⟩ :=
        starts p inPool entry present place (by simp [queued])
      have throws := (clientRequest_throws _ c place.req).mp ⟨next, raised⟩
      exact throws ⟨⟨idle, unlinked, checked⟩, fun both => sets both.2⟩
    · split at raised <;> cases raised

/-- The client is released, or it refuses the first request that waits. -/
theorem releaseClient_keeps
    (w : World)
    (c r : Nat)
    (response : Option Response)
    (error : Option ErrorCode)
    (idle : (w.clients c).request = none) :
    (w.releaseClient c r response error).Post (Keeps w)
      (fun next => Keeps w next ∧ ¬ w.NextStarts c) (fun _ => True) := by
  obtain ⟨drops, released⟩ := releaseClient_cases w c r response error
  rw [released]
  generalize shape :
    (if drops = true then w.reset c else w.weak c true) = kept
  have either :
      ∀ drops : Bool,
        Adjusts w (if drops = true then w.reset c else w.weak c true) := by
    intro drops
    cases drops
    · exact Adjusts.weak w c true
    · exact Adjusts.reset w c
  have keptAdjusts : Adjusts w kept := shape ▸ either _
  refine Straight.Post.andThen
    ((Adjusts.stopForm kept c r).imp (fun _ => id) (fun _ => False.elim)
      (fun _ _ => trivial)) ?_
  intro stopped stoppedAdjusts
  have adjusts : Adjusts w (stopped.rested c) :=
    (keptAdjusts.trans stoppedAdjusts).trans (Adjusts.rested stopped c)
  split
  · exact adjusts.keeps
  · rename_i p inPool
    have stillIdle : ((stopped.rested c).clients c).request = none :=
      (adjusts.request c).trans idle
    cases back : (stopped.rested c).putback p c with
    | ok next =>
        have post := putback_post (stopped.rested c) p c
        rw [back] at post
        exact adjusts.keeps.trans (Keeps.putsBack post)
    | raise next =>
        have post := putback_post (stopped.rested c) p c
        rw [back] at post
        exact ⟨adjusts.keeps.trans (Keeps.refusesNext post),
          fun starts => putback_raises stillIdle inPool back
            (adjusts.nextStarts starts)⟩
    | fault reason =>
        trivial

/-- The request of a client ends. -/
def Finishes (w : World) (c r : Nat) (next : World) : Prop :=
  (w.clients c).request = some r ∧
    ∃ middle, Keeps (w.detached c) middle ∧ next = middle.ending r

/-- The request of a client is lost: the exception comes before its end. -/
structure Loses (w : World) (c r : Nat) (next : World) : Prop where
  active : (w.clients c).request = some r
  refuses : ¬ w.NextStarts c
  keeps : Keeps (w.detached c) next

/-- The events with which a submission ends. -/
def endFrames
    (r : Nat)
    (response : Response)
    (error : Option ErrorCode) :
    List Frame :=
  [.fire (.partialEvent r response error), .fire (.responseEvent r response error)]

theorem finishRequest_next
    {w next : World}
    {c : Nat}
    {error : Option ErrorCode}
    {frames : List Frame}
    (executed : w.finishRequest c error = .next next frames) :
    ∃ r response,
      Finishes w c r next ∧
        frames = endFrames r response (w.finishError r error) := by
  unfold finishRequest at executed
  cases active : (w.clients c).request with
  | none =>
      simp [active] at executed
  | some r =>
      simp only [active] at executed
      split at executed
      · cases executed
      · obtain ⟨middle, released, finished⟩ := Straight.before_next executed
        cases finished
        have post :=
          releaseClient_keeps (w.detached c) c r (w.clients c).response
            (w.finishError r error) (by simp [detached, setClient])
        rw [released] at post
        exact ⟨r, _, ⟨active, middle, post, rfl⟩, rfl⟩

theorem finishRequest_raise
    {w next : World}
    {c : Nat}
    {error : Option ErrorCode}
    (executed : w.finishRequest c error = .raise next) :
    ∃ r, Loses w c r next := by
  unfold finishRequest at executed
  cases active : (w.clients c).request with
  | none =>
      simp [active] at executed
  | some r =>
      simp only [active] at executed
      split at executed
      · cases executed
      · rcases Straight.before_raise executed with released | ⟨_, _, finished⟩
        · have post :=
            releaseClient_keeps (w.detached c) c r (w.clients c).response
              (w.finishError r error) (by simp [detached, setClient])
          rw [released] at post
          exact ⟨r, active, fun starts => post.2 (starts.setClient rfl rfl),
            post.1⟩
        · cases finished

/-- `cancel` before `finish_request`. -/
def cancelling (w : World) (c : Nat) : World :=
  w.setClient c
    { w.clients c with
      parsing := none
      redirectCanceled :=
        (w.clients c).redirectCanceled || (w.clients c).inRedirect }

/-- Nothing is cancelled, or the request of the client ends. -/
theorem cancel_next
    {w next : World}
    {c : Nat}
    {error : Option ErrorCode}
    {frames : List Frame}
    (executed : w.cancel c error = .next next frames) :
    (w.clients c).request = none ∧ next = w ∧ frames = [] ∨
      ∃ r response,
        Finishes (w.cancelling c) c r next ∧
          frames =
            endFrames r response ((w.cancelling c).finishError r error) := by
  unfold cancel at executed
  dsimp only at executed
  split at executed
  · rename_i idle
    cases executed
    exact Or.inl ⟨by simpa using idle, rfl, rfl⟩
  · exact Or.inr (finishRequest_next executed)

theorem cancel_raise
    {w next : World}
    {c : Nat}
    {error : Option ErrorCode}
    (executed : w.cancel c error = .raise next) :
    ∃ r, Loses (w.cancelling c) c r next := by
  unfold cancel at executed
  dsimp only at executed
  split at executed
  · cases executed
  · exact finishRequest_raise executed

/-! ## Steps that begin and end no redirect -/

/-- The frames of `on_read` and of a redirect. -/
def isMarked : Frame → Bool
  | .onRead _ _ _ => true
  | .fire (.redirectEvent _ _ _ _) => true
  | .redirected _ => true
  | .redirectCatch _ => true
  | _ => false

def Unmarked (frames : List Frame) : Prop :=
  ∀ frame ∈ frames, isMarked frame = false

theorem unmarked_nil : Unmarked [] := by
  simp [Unmarked]

theorem unmarked_endFrames
    (r : Nat)
    (response : Response)
    (error : Option ErrorCode) :
    Unmarked (endFrames r response error) := by
  simp [Unmarked, endFrames, isMarked]

theorem Unmarked.append
    {first second : List Frame}
    (one : Unmarked first)
    (two : Unmarked second) :
    Unmarked (first ++ second) := by
  intro frame member
  exact (List.mem_append.mp member).elim (one frame) (two frame)

/-- What a step does that does not belong to a redirect. -/
inductive Move (w : World) (offered : Option Nat) : World → Prop where
  | keeps {next : World} : Keeps w next → Move w offered next
  /-- The request of a client is cancelled. -/
  | cancels {middle next : World} {c r : Nat} :
      Adjusts w middle →
      Finishes (middle.cancelling c) c r next →
      Move w offered next
  /-- A request is cancelled that no client has. -/
  | dequeues {middle : World} {r : Nat} :
      Adjusts w middle →
      (w.requests r).client = none →
      Move w offered (middle.ending r)
  /-- The application submits the request that it offers. -/
  | accepts {middle : World} {r : Nat} (pool : Option Nat)
      (loop time timeout : Nat) :
      offered = some r →
      Keeps w middle →
      Move w offered (middle.emit (.accepted r pool loop time timeout))

/-- The same of a step, which may lose a request that it is asked to cancel. -/
structure Stirs
    (w : World)
    (offered : Option Nat)
    (asked : Nat → Prop)
    (step : Step) : Prop where
  next :
    ∀ next frames,
      step = .next next frames → Move w offered next ∧ Unmarked frames
  raise :
    ∀ next,
      step = .raise next →
      Keeps w next ∨
        ∃ middle c r,
          Adjusts w middle ∧ asked c ∧ Loses (middle.cancelling c) c r next

namespace Stirs

variable {w middle : World} {offered : Option Nat} {asked : Nat → Prop}

theorem fault {reason : Fault} : Stirs w offered asked (.fault reason) := by
  constructor
  · rintro next frames ⟨⟩
  · rintro next ⟨⟩

theorem goes
    {frames : List Frame}
    (keeps : Keeps w middle)
    (unmarked : Unmarked frames) :
    Stirs w offered asked (.next middle frames) := by
  constructor
  · rintro next frames ⟨⟩
    exact ⟨.keeps keeps, unmarked⟩
  · rintro next ⟨⟩

theorem throws (keeps : Keeps w middle) :
    Stirs w offered asked (.raise middle) := by
  constructor
  · rintro next frames ⟨⟩
  · rintro next ⟨⟩
    exact Or.inl keeps

theorem cancel
    {c : Nat}
    (error : Option ErrorCode)
    (adjusts : Adjusts w middle)
    (isAsked : asked c) :
    Stirs w offered asked (middle.cancel c error) := by
  constructor
  · intro next frames executed
    rcases cancel_next executed with ⟨_, rfl, rfl⟩ | ⟨r, response, ends, rfl⟩
    · exact ⟨.keeps adjusts.keeps, unmarked_nil⟩
    · exact ⟨.cancels adjusts ends, unmarked_endFrames r response _⟩
  · intro next executed
    obtain ⟨r, loses⟩ := cancel_raise executed
    exact Or.inr ⟨middle, c, r, adjusts, isAsked, loses⟩

theorem dequeue
    {r : Nat}
    (p : Nat)
    (error : Option ErrorCode)
    (adjusts : Adjusts w middle)
    (unlinked : (middle.requests r).client = none) :
    Stirs w offered asked (middle.cancelRequest p r error) := by
  have free : (w.requests r).client = none := (adjusts.link r).symm.trans unlinked
  unfold cancelRequest
  dsimp only
  split
  · exact fault
  · split
    · exact fault
    · constructor
      · rintro next frames ⟨⟩
        exact ⟨.dequeues adjusts free,
          (unmarked_endFrames r _ error).append (by simp [Unmarked, isMarked])⟩
      · rintro next ⟨⟩

/-- A call of the application that submits a request. -/
theorem submits
    {straight : Straight}
    {r loop : Nat}
    (pool : Option Nat)
    (isOffered : offered = some r)
    (post : straight.Post (Keeps w) (Keeps w) (fun _ => True)) :
    Stirs w offered asked (straight.before (acceptedOn pool loop r)) := by
  cases straight with
  | ok middle =>
      constructor
      · rintro next frames ⟨⟩
        exact ⟨.accepts pool loop _ _ isOffered post, unmarked_nil⟩
      · rintro next ⟨⟩
  | raise middle =>
      exact throws post
  | fault reason =>
      exact fault

end Stirs

/-- `cancel` on the client of the request, or in its queue. -/
theorem requestCancel_stirs
    {w : World}
    {offered : Option Nat}
    {asked : Nat → Prop}
    (r : Nat)
    (error : Option ErrorCode)
    (isAsked : ∀ c, (w.requests r).client = some c → asked c) :
    Stirs w offered asked (w.requestCancel r error) := by
  unfold requestCancel
  dsimp only
  split
  · rename_i c linked
    exact .cancel error (Adjusts.refl w) (isAsked c linked)
  · rename_i p unlinked _
    exact .dequeue p error (Adjusts.refl w) unlinked
  · exact .goes (Keeps.refl w) unmarked_nil

theorem onTimer_stirs
    {w before : World}
    {offered : Option Nat}
    {asked : Nat → Prop}
    (r : Nat)
    (adjusts : Adjusts before w)
    (isAsked : ∀ c, asked c) :
    Stirs before offered asked (w.onTimer r) := by
  unfold onTimer
  dsimp only
  split
  · exact .cancel _ adjusts (isAsked _)
  · rename_i p unlinked _
    exact .dequeue p _ adjusts unlinked
  · exact .goes adjusts.keeps unmarked_nil

theorem requestSend_stirs
    {w : World}
    {offered : Option Nat}
    {asked : Nat → Prop}
    (r : Nat)
    {send : Nat → Step}
    (sends : ∀ c, Stirs w offered asked (send c)) :
    Stirs w offered asked (w.requestSend r send) := by
  unfold requestSend
  dsimp only
  split
  · exact .throws (Adjusts.emit w rfl).keeps
  · split
    · exact .throws (Adjusts.emit w rfl).keeps
    · split
      · exact sends _
      · exact .fault

/-- Every frame that belongs to no redirect. -/
theorem code_stirs
    (w : World)
    {frame : Frame}
    (unmarked : isMarked frame = false) :
    Stirs w none (fun _ => False) (code frame w) := by
  cases frame with
  | callback callback =>
      exact .goes (Keeps.refl w) unmarked_nil
  | fire callback =>
      refine .goes (Adjusts.emit w ?_).keeps ?_
      · cases callback <;> first | rfl | cases unmarked
      · intro frame member
        obtain ⟨listener, _, rfl⟩ := List.mem_map.mp member
        cases listener <;> cases callback <;> rfl
  | agentResponse a r response error =>
      refine .goes ?_ unmarked_nil
      unfold agentResponse
      split
      · exact Keeps.refl w
      · exact Keeps.collect w _ _ _
  | agentRedirect a contextUri topLevel c context =>
      obtain ⟨reason, _, faults⟩ | ⟨response, r, _, _, acts⟩ :=
        code_agentRedirect w a contextUri topLevel c context
      · rw [faults]
        exact .fault
      · rw [acts]
        exact .goes
          ((Keeps.collect w a response.cookies context.uri).trans
            (Keeps.inject _ a r contextUri topLevel _)) unmarked_nil
  | continued c =>
      refine .goes (Adjusts.keeps ?_) unmarked_nil
      exact Adjusts.setClient w c ⟨rfl, rfl, rfl, rfl, rfl⟩
  | rethrow =>
      exact .throws (Keeps.refl w)
  | cancelReturn p key ticket generation =>
      change Stirs w none _ (w.cancelReturn p key ticket generation)
      unfold cancelReturn
      dsimp only
      split
      · exact .fault
      · split
        · exact .goes (Keeps.setEntry w p key _) unmarked_nil
        · exact .fault
  | redirected _ | redirectCatch _ | onRead _ _ _ =>
      cases unmarked

/-- The request that the application submits by a call. -/
def offeredRequest : Input → Option Nat
  | .clientRequest _ r => some r
  | .poolRequest _ r => some r
  | .agentRequest _ r _ _ => some r
  | _ => none

/-- The events of the loop after which a response is analyzed or a form goes on. -/
def isReception : Input → Bool
  | .onRead _ _ => true
  | .onEof _ _ _ => true
  | .streamFinish _ _ _ => true
  | _ => false

/-- A call that asks for the cancellation of what the client does. -/
inductive AsksToCancel (w : World) : Input → Nat → Prop where
  | request {r c : Nat} {error : Option ErrorCode} :
      (w.requests r).client = some c → AsksToCancel w (.cancel r error) c
  | client {c : Nat} {error : Option ErrorCode} :
      AsksToCancel w (.clientCancel c error) c

/-- Every call and every event but those that bring a response. -/
theorem accept_stirs
    {w : World}
    {input : Input}
    {top : Option Frame}
    {outcome : Step}
    (other : isReception input = false)
    (accepted : accept input top w = some outcome) :
    Stirs w (offeredRequest input)
      (fun c => top = none ∨ AsksToCancel w input c) outcome := by
  cases input with
  | edit r fields =>
      simp only [accept] at accepted
      split at accepted
      · cases accepted
        exact .goes (Keeps.setRequest w r rfl rfl) unmarked_nil
      · cases accepted
  | listen r =>
      cases top <;> simp only [accept, reduceCtorEq] at accepted
      cases accepted
      exact .goes (Keeps.setRequest w r rfl rfl) unmarked_nil
  | newClient loop =>
      cases accepted
      exact .goes (Keeps.newClient w loop none) unmarked_nil
  | clientRequest c r =>
      simp only [accept] at accepted
      split at accepted
      · cases accepted
        exact .submits none rfl
          ((clientRequest_post w c r).imp (fun _ => Keeps.started)
            (fun _ => Keeps.refused) (fun _ _ => trivial))
      · cases accepted
  | poolRequest p r =>
      cases accepted
      exact .submits (some p) rfl (poolRequest_keeps w p r)
  | agentRequest a r contextUri topLevel =>
      cases accepted
      exact .submits _ rfl (agentRequest_keeps w a r contextUri topLevel)
  | cancel r error =>
      cases accepted
      exact requestCancel_stirs r error fun c linked => Or.inr (.request linked)
  | clientCancel c error =>
      cases accepted
      exact .cancel error (Adjusts.refl w) (Or.inr .client)
  | sendChunk r data =>
      cases accepted
      refine requestSend_stirs r fun c => ?_
      split
      · exact .goes (Keeps.refl w) unmarked_nil
      · exact .goes (Adjusts.write w c _).keeps unmarked_nil
  | sendFinalChunk r data =>
      cases accepted
      refine requestSend_stirs r fun c => .goes ?_ unmarked_nil
      refine Keeps.trans ?_ (Adjusts.write _ c _).keeps
      exact Keeps.setRequest w r rfl rfl
  | maxConnections p value =>
      cases accepted
      exact .goes (.same rfl rfl rfl ⟨[], by simp, by simp⟩) unmarked_nil
  | advance loop milliseconds =>
      cases top <;> simp only [accept, reduceCtorEq] at accepted
      cases accepted
      exact .goes (.same rfl rfl rfl ⟨[], by simp, by simp⟩) unmarked_nil
  | onConnect c error =>
      cases top <;> simp only [accept, reduceCtorEq] at accepted
      split at accepted
      · split at accepted <;> cases accepted
        · exact .goes (Adjusts.setTcp w c _).keeps unmarked_nil
        · exact .cancel _ (Adjusts.setTcp w c _) (Or.inl rfl)
      · cases accepted
  | onWrite c error =>
      cases top <;> simp only [accept, reduceCtorEq] at accepted
      split at accepted
      · split at accepted <;> cases accepted
        · exact .goes (Adjusts.setTcp w c _).keeps unmarked_nil
        · exact .cancel _ (Adjusts.setTcp w c _) (Or.inl rfl)
      · cases accepted
  | onReadError c error =>
      cases top <;> simp only [accept, reduceCtorEq] at accepted
      split at accepted <;> cases accepted
      exact .cancel _ (Adjusts.refl w) (Or.inl rfl)
  | onTimer r =>
      cases top <;> simp only [accept, reduceCtorEq] at accepted
      split at accepted
      · cases accepted
      · split at accepted
        · cases accepted
        · split at accepted <;> cases accepted
          unfold fireTimer
          dsimp only
          split
          · exact onTimer_stirs r (Adjusts.setRequest w r rfl rfl rfl)
              fun _ => Or.inl rfl
          · exact .goes (Keeps.setRequest w r rfl rfl) unmarked_nil
  | streamData r item data =>
      cases top <;> simp only [accept, reduceCtorEq] at accepted
      split at accepted <;> cases accepted
      exact .goes (Adjusts.write w _ _).keeps unmarked_nil
  | checkInactivity p =>
      cases top <;> simp only [accept, reduceCtorEq] at accepted
      split at accepted <;> cases accepted
      exact .goes (.same rfl rfl rfl ⟨[], by simp [checkInactivity], by simp⟩)
        unmarked_nil
  | onRead _ _ | onEof _ _ _ | streamFinish _ _ _ =>
      cases other

/-! ## Receiving a response -/

/-- The world in which the next redirect of a request is counted. -/
def counting (w : World) (r : Nat) : World :=
  w.setRequest r (counted (w.requests r))

/-- A redirect that is to be followed if the limit permits it. -/
structure Redirected (w : World) (c r : Nat) (response : Response) : Prop where
  active : (w.clients c).request = some r
  answered : (w.clients c).response = some response
  follows : (w.requests r).followRedirect = true
  isRedirect : isRedirect response.code = true

/-- What `analyze_request` does. -/
inductive Analyses (w : World) (c : Nat) : Step → Prop where
  | fails (reason : Fault) : Analyses w c (.fault reason)
  | continues {response : Response} (r : Nat) :
      (w.clients c).response = some response →
      response.code = 100 →
      Analyses w c (.next w [.fire (.continueEvent r), .continued c])
  | unexpected {r : Nat} {response : Response} :
      Redirected w c r response →
      (w.requests r).redirectionLimit = 0 →
      Analyses w c (w.cancel c (some (.http .unexpectedRedirect)))
  | limited {r : Nat} {response : Response} :
      Redirected w c r response →
      (w.requests r).redirectionLimit ≠ 0 →
      (w.requests r).redirectionLimit <
        (counted (w.requests r)).redirectionCounter →
      Analyses w c ((w.counting r).cancel c (some (.http .redirectionLimit)))
  | unlocated {r : Nat} {response : Response} :
      Redirected w c r response →
      (w.requests r).redirectionLimit ≠ 0 →
      (counted (w.requests r)).redirectionCounter ≤
        (w.requests r).redirectionLimit →
      response.location = none →
      Analyses w c ((w.counting r).cancel c (some (.http .noRedirectUri)))
  | redirects {r : Nat} {response : Response} {location : Uri} {next : World}
      (context : RedirectContext) :
      Redirects w c r response location next →
      Analyses w c
        (.next next [.fire (.redirectEvent c r response context), .redirected c])
  | finishes :
      (∀ r response,
        (w.clients c).request = some r →
        (w.clients c).response = some response →
        response.code ≠ 100 ∧ ¬ Redirected w c r response) →
      Analyses w c (w.finishRequest c none)

theorem analyzeRequest_analyses (w : World) (c : Nat) :
    Analyses w c (w.analyzeRequest c) := by
  unfold analyzeRequest
  dsimp only
  split
  · exact .fails _
  · exact .fails _
  · rename_i r response active answered
    split
    · rename_i isContinue
      exact .continues r answered isContinue
    · rename_i notContinue
      split
      · rename_i following
        simp only [Bool.and_eq_true] at following
        have redirected : Redirected w c r response :=
          ⟨active, answered, following.1, following.2⟩
        split
        · rename_i unlimited
          exact .unexpected redirected unlimited
        · rename_i permitted
          split
          · rename_i exceeded
            exact .limited redirected permitted exceeded
          · rename_i within
            split
            · rename_i missing
              exact .unlocated redirected permitted (Nat.le_of_not_lt within)
                missing
            · rename_i location hasLocation
              refine .redirects _ ⟨active, answered, following.1, following.2,
                hasLocation, permitted, Nat.le_of_not_lt within, ?_⟩
              simp [World.setRequest, setClient, counted]
      · rename_i notRedirected
        refine .finishes ?_
        intro s answer isActive isAnswer
        rw [active] at isActive
        rw [answered] at isAnswer
        cases isActive
        cases isAnswer
        refine ⟨notContinue, fun redirected => notRedirected ?_⟩
        simp [redirected.follows, redirected.isRedirect]

theorem andFrames_nil (step : Step) : andFrames step [] = step := by
  cases step <;> simp [andFrames]

/-- What is left of `on_read` or of another event that brings a response. -/
inductive Remains : List Frame → Prop where
  | nothing : Remains []
  | buffer (c buffer : Nat) (buf : List Parsed) : Remains [.onRead c buffer buf]

/-- The response that is complete after an iteration of the loop of `on_read`. -/
def readAnswer (w : World) (c : Nat) : List Parsed → Option (Nat × Response)
  | .done response :: _ =>
      if (w.clients c).parsing.isSome then
        some (c, (Parsed.done response).response)
      else
        none
  | _ => none

/-- The response that an end of file completes. -/
def inputAnswer (w : World) : Input → Option (Nat × Response)
  | .onEof c none response =>
      if (w.clients c).request.isSome && (w.clients c).parsing.isSome then
        some (c, { response with isDone := true })
      else
        none
  | _ => none

/-- What a step does that may complete a response, or ends a part of a form. -/
inductive Receives (w : World) : Option (Nat × Response) → Step → Prop where
  | stirs {step : Step} :
      Stirs w none (fun _ => True) step → Receives w none step
  | delivers {next : World} (c buffer : Nat) (buf : List Parsed) :
      Keeps w next → Receives w none (.next next [.onRead c buffer buf])
  | finishes {middle : World} (c : Nat) (error : Option ErrorCode) :
      Adjusts w middle → Receives w none (middle.finishRequest c error)
  | analyzes {middle : World} {c : Nat} {response : Response}
      {rest : List Frame} :
      Adjusts w middle →
      (middle.clients c).response = some response →
      Remains rest →
      Receives w (some (c, response))
        (andFrames (middle.analyzeRequest c) rest)

theorem Adjusts.parseShift
    (w : World)
    (c buffer context : Nat)
    (result : Parsed) :
    Adjusts w (w.parseShift c buffer context result) := by
  unfold World.parseShift
  refine Adjusts.trans ?_ (Adjusts.emit _ rfl)
  exact Adjusts.setClient w c ⟨rfl, rfl, rfl, rfl, rfl⟩

theorem receivePart_stirs
    {before w : World}
    (c : Nat)
    (response : Response)
    (adjusts : Adjusts before w) :
    Stirs before none (fun _ => True) (w.receivePart c response) := by
  unfold receivePart
  split
  · exact .goes adjusts.keeps unmarked_nil
  · split
    · exact .fault
    · split
      · exact .goes adjusts.keeps unmarked_nil
      · exact .goes adjusts.keeps (by simp [Unmarked, isMarked])

/-- One iteration of the loop of `on_read`. -/
theorem onReadLoop_receives (w : World) (c buffer : Nat) (buf : List Parsed) :
    Receives w (w.readAnswer c buf) (w.onReadLoop c buffer buf) := by
  cases buf with
  | nil =>
      exact .stirs (.goes (Keeps.refl w) unmarked_nil)
  | cons result rest =>
      cases context : (w.clients c).parsing with
      | none =>
          have noAnswer : w.readAnswer c (result :: rest) = none := by
            cases result <;> simp [readAnswer, context]
          rw [noAnswer]
          simp only [onReadLoop, context]
          exact .stirs (.goes (Adjusts.reset w c).keeps unmarked_nil)
      | some parsing =>
          have parsed := Adjusts.parseShift w c buffer parsing result
          simp only [onReadLoop, context]
          cases result with
          | error error response =>
              exact .stirs (.cancel (some error) parsed trivial)
          | headers =>
              exact .stirs (.goes parsed.keeps unmarked_nil)
          | body response =>
              exact .stirs (receivePart_stirs c _ parsed)
          | done response =>
              have isAnswer :
                  w.readAnswer c (.done response :: rest) =
                    some (c, (Parsed.done response).response) := by
                simp [readAnswer, context]
              rw [isAnswer]
              exact .analyzes parsed
                (by simp [World.parseShift, World.emit, World.setClient])
                (.buffer c buffer rest)

theorem onEof_receives
    {before w : World}
    (c : Nat)
    (error : Option ErrorCode)
    (response : Response)
    (adjusts : Adjusts before w)
    (sameParsing : (w.clients c).parsing = (before.clients c).parsing) :
    Receives before (before.inputAnswer (.onEof c error response))
      (w.onEof c error response) := by
  have sameRequest := adjusts.request c
  cases active : (w.clients c).request with
  | none =>
      have noAnswer : before.inputAnswer (.onEof c error response) = none := by
        cases error <;> simp [inputAnswer, ← sameRequest, active]
      rw [noAnswer]
      simp only [onEof, active]
      exact .stirs
        (.goes (adjusts.trans (Adjusts.reset w c)).keeps unmarked_nil)
  | some r =>
      cases context : (w.clients c).parsing with
      | none =>
          have noAnswer : before.inputAnswer (.onEof c error response) = none := by
            cases error <;> simp [inputAnswer, ← sameParsing, context]
          rw [noAnswer]
          simp only [onEof, active, context]
          exact .stirs .fault
      | some parsing =>
          have ended :
              Adjusts w
                (w.setClient c
                  { w.clients c with
                    request := some r
                    response := some { response with isDone := true }
                    parsing := none }) :=
            Adjusts.setClient w c ⟨active.symm, rfl, rfl, rfl, rfl⟩
          simp only [onEof, active, context]
          cases error with
          | some error =>
              exact .stirs (.cancel _ (adjusts.trans ended) trivial)
          | none =>
              have isAnswer :
                  before.inputAnswer (.onEof c none response) =
                    some (c, { response with isDone := true }) := by
                simp [inputAnswer, ← sameRequest, ← sameParsing, active, context]
              have answered :
                  ((w.setClient c
                    { w.clients c with
                      request := some r
                      response := some { response with isDone := true }
                      parsing := none }).clients c).response =
                    some { response with isDone := true } := by
                simp [World.setClient]
              have analyzed :=
                Receives.analyzes (adjusts.trans ended) answered .nothing
              rw [andFrames_nil] at analyzed
              rw [isAnswer]
              exact analyzed

theorem formFileComplete_receives
    {before w : World}
    (c : Nat)
    (error : Option ErrorCode)
    (adjusts : Adjusts before w) :
    Receives before none (w.formFileComplete c error) := by
  unfold formFileComplete
  split
  · exact .finishes c _ adjusts
  · have counts :
        Adjusts w
          (w.setClient c
            { w.clients c with formField := (w.clients c).formField + 1 }) :=
      Adjusts.setClient w c ⟨rfl, rfl, rfl, rfl, rfl⟩
    dsimp only
    generalize w.setClient c
      { w.clients c with formField := (w.clients c).formField + 1 } = next
      at counts
    cases active : (next.clients c).request with
    | none =>
        simp only [sendForm, active]
        exact .stirs .fault
    | some r =>
        have post := sendForm_post next c r active
        cases sent : next.sendForm c with
        | ok middle =>
            rw [sent] at post
            exact .stirs (.goes
              ((adjusts.trans counts).trans (Adjusts.of_sends post)).keeps
              unmarked_nil)
        | raise middle =>
            rw [sent] at post
            exact post.elim
        | fault reason =>
            exact .stirs .fault

/-- The events that bring a response or end a part of a form. -/
theorem accept_receives
    {w : World}
    {input : Input}
    {top : Option Frame}
    {outcome : Step}
    (reception : isReception input = true)
    (accepted : accept input top w = some outcome) :
    top = none ∧ Receives w (w.inputAnswer input) outcome := by
  cases input with
  | onRead c buf =>
      cases top <;> simp only [accept, reduceCtorEq] at accepted
      split at accepted <;> cases accepted
      refine ⟨rfl, .delivers c _ buf ?_⟩
      exact .same rfl rfl rfl ⟨[_], rfl, by simp [isTurning]⟩
  | onEof c error response =>
      cases top <;> simp only [accept, reduceCtorEq] at accepted
      split at accepted <;> cases accepted
      refine ⟨rfl, onEof_receives c error response ?_ ?_⟩
      · exact (Adjusts.setTcp w c _).trans (Adjusts.emit _ rfl)
      · simp [World.emit, World.setTcp, World.setClient]
  | streamFinish r item error =>
      cases top <;> simp only [accept, reduceCtorEq] at accepted
      split at accepted <;> cases accepted
      exact ⟨rfl, formFileComplete_receives _ error
        (Adjusts.setRequest w r rfl rfl rfl)⟩
  | _ =>
      cases reception

/-! ## Following a redirect -/

/-- A redirected request leaves its client and goes on. -/
theorem followRedirect_keeps
    (w : World)
    (c r : Nat)
    (response : Response) :
    (w.followRedirect c r response).Post (Keeps (w.leaving c r))
      (Keeps (w.leaving c r)) (fun _ => True) := by
  have hops : Keeps (w.leaving c r) (w.hopping c r response) := by
    rw [hopping_eq]
    split
    · exact Keeps.refl _
    · exact (Adjusts.reset _ c).keeps
  have self :
      ((w.hopping c r response).clientRequest c r).Post
        (Keeps (w.leaving c r)) (Keeps (w.leaving c r)) (fun _ => True) :=
    (clientRequest_post _ c r).imp
      (fun _ started => hops.trans (.started started))
      (fun _ refused => hops.trans (.refused refused)) (fun _ _ => trivial)
  unfold followRedirect
  dsimp only
  split
  · exact self
  · rename_i p inPool
    split
    · have rests :=
        hops.trans (Adjusts.rested (w.hopping c r response) c).keeps
      refine Straight.Post.andThen
        ((putback_post _ p c).imp
          (fun _ back => rests.trans (.putsBack back))
          (fun _ refuses => rests.trans (.refusesNext refuses))
          (fun _ _ => trivial)) ?_
      intro released keeps
      have weak := keeps.trans (Adjusts.weak released c true).keeps
      exact (poolRequest_keeps _ p r).imp (fun _ => weak.trans)
        (fun _ => weak.trans) (fun _ _ => trivial)
    · exact self

end UniEventHttp.ClientSide.World
