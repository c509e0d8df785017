import UniEventHttp.ClientUploads

namespace UniEventHttp.ClientSide.World

/-!
# Uploads step by step

The code that starts and ends requests keeps the books of the uploads; what it
writes of a form it writes when a request is started.
-/

/-- A client with a request has a parser for it. -/
def Hears (w : World) (c : Nat) : Prop :=
  (w.clients c).request.isSome = true → (w.clients c).parsing.isSome = true

/-- No upload goes on, and no stream of a request is lost. -/
structure Rests (w next : World) : Prop extends Same w next where
  sound : ∀ c, Live (w.clients c) → Live (next.clients c)
  hears : ∀ c, Hears w c → Hears next c

/-- Requests may have been started, each with its head and the start of its form. -/
structure Serves (w next : World) : Prop where
  books : Books next
  sound : ∀ c, Live (w.clients c) → Live (next.clients c)
  hears : ∀ c, Hears w c → Hears next c
  link :
    ∀ r c, (w.requests r).client = some c → (next.requests r).client = some c
  streaming :
    ∀ r c,
      (w.requests r).client = some c →
      (next.requests r).streaming = (w.requests r).streaming
  begun :
    ∀ c r,
      (next.clients c).request = some r →
      (w.clients c).request = some r ∨ (w.requests r).client = none
  sent :
    ∀ r, sentOf r next.trace = sentOf r w.trace ∨ Begins w next r

section

variable {w middle next : World}

namespace Rests

theorem refl (w : World) : Rests w w where
  toSame := Same.refl w
  sound _ := id
  hears _ := id

theorem trans
    (one : Rests w middle)
    (two : Rests middle next) :
    Rests w next where
  toSame := one.toSame.trans two.toSame
  sound c := two.sound c ∘ one.sound c
  hears c := two.hears c ∘ one.hears c

/-- The clients are left alone. -/
theorem of_clients
    (same : Same w next)
    (clients : next.clients = w.clients) :
    Rests w next where
  toSame := same
  sound c sound := by
    rw [clients]
    exact sound
  hears c hears := by
    unfold Hears
    rw [clients]
    exact hears

theorem emit
    (w : World)
    {event : Event}
    (noPiece : ∀ r, isPieceOf r event = false) :
    Rests w (w.emit event) :=
  of_clients (Same.emit w noPiece) rfl

theorem setEntry
    (w : World)
    (p : Nat)
    (key : NetLoc)
    (entry : Option NetLocList) :
    Rests w (w.setEntry p key entry) := by
  have same : Same w (w.setEntry p key entry) := by
    constructor <;> intros <;> first | rfl | exact Or.inl rfl
  exact of_clients same rfl

theorem setRequest
    (w : World)
    (r : Nat)
    {request : Request}
    (link : request.client = (w.requests r).client)
    (form : request.form = (w.requests r).form)
    (streaming : request.streaming = (w.requests r).streaming)
    (completed :
      request.transferCompleted = (w.requests r).transferCompleted) :
    Rests w (w.setRequest r request) :=
  of_clients (Same.setRequest w r link (fun _ => form) (Or.inl streaming) completed)
    rfl

theorem setClient
    (w : World)
    (c : Nat)
    {client : ClientSide.Client}
    (request : client.request = (w.clients c).request)
    (field : client.formField = (w.clients c).formField)
    (sound : Live (w.clients c) → Live client)
    (hears :
      client.request.isSome = true →
      (w.clients c).parsing.isSome = true →
      client.parsing.isSome = true) :
    Rests w (w.setClient c client) where
  toSame := Same.setClient w c request field
  sound d isSound := by
    by_cases here : d = c
    · subst d
      simpa [World.setClient] using sound isSound
    · simpa [World.setClient, here] using isSound
  hears d isHeard := by
    by_cases here : d = c
    · subst d
      unfold Hears at isHeard ⊢
      simp only [World.setClient, Function.update_self]
      intro active
      rw [← request] at isHeard
      exact hears active (isHeard active)
    · unfold Hears at isHeard ⊢
      simpa [World.setClient, here] using isHeard

theorem setTcp
    (w : World)
    (c : Nat)
    {tcp : Tcp}
    (status : tcp.status = (w.clients c).tcp.status)
    (connection : tcp.connection = (w.clients c).tcp.connection)
    (eof : tcp.eof = (w.clients c).tcp.eof) :
    Rests w (w.setTcp c tcp) := by
  refine setClient w c rfl rfl (fun sound => ⟨?_, ?_, ?_⟩) fun _ => id
  · intro notClosed
    have wired := sound.wired
    rw [← status, ← connection] at wired
    exact wired notClosed
  · intro active
    have opened := sound.opened active
    rwa [← status] at opened
  · intro active
    have hears := sound.hears active
    rwa [← eof] at hears

/-- A stream without a request is reset. -/
theorem reset
    (w : World)
    (c : Nat)
    (idle : (w.clients c).request = none) :
    Rests w (w.reset c) := by
  refine setClient w c rfl rfl (fun _ => ⟨?_, ?_, ?_⟩) fun _ => id
  · intro notClosed
    exact (notClosed rfl).elim
  · intro active
    simp [idle] at active
  · intro active
    simp [idle] at active

end Rests

theorem Same.streams
    {r c : Nat}
    (same : Same w next)
    (linked : (w.requests r).client = some c) :
    (next.requests r).streaming = (w.requests r).streaming := by
  funext item
  rcases same.streaming r item with kept | ⟨unlinked, _⟩
  · exact kept
  · rw [unlinked] at linked
    cases linked

theorem Serves.of_rests
    (books : Books w)
    (rests : Rests w next) :
    Serves w next where
  books := books.same rests.toSame
  sound := rests.sound
  hears := rests.hears
  link r _ linked := (rests.link r).trans linked
  streaming _ _ linked := rests.toSame.streams linked
  begun c _ active := Or.inl ((rests.request c).symm.trans active)
  sent r := Or.inl (rests.sent r)

theorem Serves.after
    (rests : Rests w middle)
    (serves : Serves middle next) :
    Serves w next where
  books := serves.books
  sound c := serves.sound c ∘ rests.sound c
  hears c := serves.hears c ∘ rests.hears c
  link r c linked := serves.link r c ((rests.link r).trans linked)
  streaming r c linked :=
    (serves.streaming r c ((rests.link r).trans linked)).trans
      (rests.toSame.streams linked)
  begun c r active := by
    rcases serves.begun c r active with before | unlinked
    · exact Or.inl ((rests.request c).symm.trans before)
    · exact Or.inr ((rests.link r).symm.trans unlinked)
  sent r := by
    rcases serves.sent r with same | ⟨unlinked, started⟩
    · exact Or.inl (same.trans (rests.sent r))
    · exact Or.inr ⟨(rests.link r).symm.trans unlinked, started⟩

end

/-! ## Starting requests -/

section Starting

variable {w next : World} {c r : Nat}

theorem Opens.serves
    (opens : Opens w c r next)
    (books : Books w)
    (sound : Live (w.clients c)) :
    Serves w next := by
  have started := opens.started
  obtain ⟨isSent, others⟩ := opens.wrote.sentOf sound
  refine
    { books := opens.books books sound
      sound := ?_, hears := ?_, link := ?_, streaming := ?_, begun := ?_
      sent := ?_ }
  · intro d isSound
    by_cases here : d = c
    · subst d
      exact opens.sound isSound
    · rw [started.clients d here]
      exact isSound
  · intro d isHeard
    by_cases here : d = c
    · subst d
      intro _
      rw [started.client]
      rfl
    · unfold Hears
      rw [started.clients d here]
      exact isHeard
  · intro s d linked
    by_cases here : s = r
    · subst s
      rw [started.unlinked] at linked
      cases linked
    · rw [started.requests s here]
      exact linked
  · intro s d linked
    by_cases here : s = r
    · subst s
      rw [started.unlinked] at linked
      cases linked
    · rw [started.requests s here]
  · intro d s active
    by_cases here : d = c
    · subst d
      rw [started.active] at active
      cases active
      exact Or.inr started.unlinked
    · rw [started.clients d here] at active
      exact Or.inl active
  · intro s
    by_cases here : s = r
    · rw [here]
      refine Or.inr ⟨started.unlinked, c,
        (w.requests r).toRequestFields.withScheme, started.active, ?_⟩
      rw [isSent]
      rfl
    · exact Or.inl (others s here)

theorem Refused.sentOf
    (refused : Refused w c r next)
    (s : Nat) :
    World.sentOf s next.trace = World.sentOf s w.trace := by
  obtain ⟨exception, trace⟩ := refused.trace
  rw [trace]
  exact sentOf_append w.trace (by simp [isPieceOf])

theorem Refused.books
    (refused : Refused w c r next)
    (books : Books w) :
    Books next := by
  obtain ⟨tcp, client⟩ := refused.client
  have request : ∀ d, (next.clients d).request = (w.clients d).request := by
    intro d
    by_cases here : d = c
    · subst d
      rw [client]
    · rw [refused.clients d here]
  have field : ∀ d, (next.clients d).formField = (w.clients d).formField := by
    intro d
    by_cases here : d = c
    · subst d
      rw [client]
    · rw [refused.clients d here]
  have ofRequest :
      (next.requests r).form = (w.requests r).form ∧
        (next.requests r).streaming = (w.requests r).streaming ∧
        (next.requests r).transferCompleted =
          (w.requests r).transferCompleted ∧
        ∀ d, (w.requests r).client = some d →
          (next.requests r).client = some d := by
    rcases refused.request with same | ⟨_, unlinked, _, linked, _⟩
    · rw [same]
      exact ⟨rfl, rfl, rfl, fun _ => id⟩
    · rw [linked, unlinked]
      exact ⟨rfl, rfl, rfl, by simp⟩
  have all :
      ∀ s,
        (next.requests s).form = (w.requests s).form ∧
          (next.requests s).streaming = (w.requests s).streaming ∧
          (next.requests s).transferCompleted =
            (w.requests s).transferCompleted ∧
          ∀ d, (w.requests s).client = some d →
            (next.requests s).client = some d := by
    intro s
    by_cases here : s = r
    · subst s
      exact ofRequest
    · rw [refused.requests s here]
      exact ⟨rfl, rfl, rfl, fun _ => id⟩
  refine
    { linked := ?_, idle := ?_, holds := ?_, running := ?_, fresh := ?_
      sent := ?_ }
  · intro d s active
    exact (all s).2.2.2 d (books.linked d s ((request d).symm.trans active))
  · intro d none
    exact (field d).trans (books.idle d ((request d).symm.trans none))
  · intro d s active
    obtain ⟨fields, pieces, sent, form, progress⟩ :=
      books.holds d s ((request d).symm.trans active)
    refine ⟨fields, pieces, (refused.sentOf s).trans sent,
      form.trans (all s).1.symm, ?_⟩
    cases progress with
    | ended isOver complete =>
        refine .ended ((field d).trans isOver) ?_
        rw [(all s).2.2.1]
        exact complete
    | item index isItem streams incomplete isSent streaming =>
        refine .item index ((field d).trans isItem) streams
          ((all s).2.2.1.trans incomplete) isSent ?_
        rw [(all s).2.1]
        exact streaming
  · intro s item runs
    rw [(all s).2.1] at runs
    obtain ⟨d, active, isItem⟩ := books.running s item runs
    exact ⟨d, (request d).trans active, (field d).trans isItem⟩
  · intro s unlinked
    rw [(all s).2.2.1]
    refine books.fresh s ?_
    cases linked : (w.requests s).client with
    | none =>
        rfl
    | some d =>
        rw [(all s).2.2.2 d linked] at unlinked
        cases unlinked
  · intro s fields pieces sent streams
    exact books.sent s fields pieces ((refused.sentOf s).symm.trans sent) streams

/-- A client that has refused a request has closed its stream, or kept it. -/
theorem Refused.live
    (refused : Refused w c r next)
    (idle : (w.clients c).request = none)
    (sound : Live (w.clients c)) :
    Live (next.clients c) := by
  obtain ⟨tcp, client⟩ := refused.client
  have stillIdle : (next.clients c).request = none := by
    rw [client]
    exact idle
  refine ⟨fun isOpen => ?_, by simp [stillIdle], by simp [stillIdle]⟩
  rcases refused.stream with ⟨status, connection⟩ | ⟨closed, _⟩
  · rw [connection]
    exact sound.wired (status ▸ isOpen)
  · exact (isOpen closed).elim

theorem Refused.serves
    (refused : Refused w c r next)
    (books : Books w)
    (idle : (w.clients c).request = none)
    (sound : Live (next.clients c)) :
    Serves w next := by
  obtain ⟨tcp, client⟩ := refused.client
  have stillIdle : (next.clients c).request = none := by
    rw [client]
    exact idle
  refine
    { books := refused.books books
      sound := ?_, hears := ?_, link := ?_, streaming := ?_, begun := ?_
      sent := fun s => Or.inl (refused.sentOf s) }
  · intro d isSound
    by_cases here : d = c
    · rw [here]
      exact sound
    · rw [refused.clients d here]
      exact isSound
  · intro d isHeard
    unfold Hears at isHeard ⊢
    by_cases here : d = c
    · rw [here, stillIdle]
      simp
    · rw [refused.clients d here]
      exact isHeard
  · intro s d linked
    by_cases here : s = r
    · subst s
      rcases refused.request with same | ⟨_, unlinked, _⟩
      · rw [same]
        exact linked
      · rw [unlinked] at linked
        cases linked
    · rw [refused.requests s here]
      exact linked
  · intro s d linked
    by_cases here : s = r
    · subst s
      rcases refused.request with same | ⟨_, unlinked, _⟩
      · rw [same]
      · rw [unlinked] at linked
        cases linked
    · rw [refused.requests s here]
  · intro d s active
    by_cases here : d = c
    · rw [here, stillIdle] at active
      cases active
    · rw [refused.clients d here] at active
      exact Or.inl active

/-- `Client::request` -/
theorem clientRequest_serves
    (books : Books w)
    (sound : Live (w.clients c))
    (r : Nat) :
    (w.clientRequest c r).Post (Serves w) (Serves w) (fun _ => True) := by
  cases idle : (w.clients c).request with
  | some s =>
      have refuses :
          w.clientRequest c r =
            w.throwing
              (.httpError "client supports only one request at a time") := by
        simp [clientRequest, idle]
      rw [refuses]
      exact Serves.of_rests books (Rests.emit w fun _ => rfl)
  | none =>
      exact (clientRequest_opens w c r).imp
        (fun _ opens => opens.serves books sound)
        (fun _ refused => refused.serves books idle (refused.live idle sound))
        (fun _ _ => trivial)

theorem Serves.post_after
    {middle : World}
    {straight : Straight}
    (rests : Rests w middle)
    (post :
      straight.Post (Serves middle) (Serves middle) (fun _ => True)) :
    straight.Post (Serves w) (Serves w) (fun _ => True) :=
  post.imp (fun _ => Serves.after rests) (fun _ => Serves.after rests)
    (fun _ => id)

/-- `Pool::putback` -/
theorem putback_serves
    (books : Books w)
    (sound : Live (w.clients c))
    (p : Nat) :
    (w.putback p c).Post (Serves w) (Serves w) (fun _ => True) := by
  unfold putback
  dsimp only
  split
  · trivial
  · split
    · rename_i entry _ _ place rest _
      have rests :=
        Rests.setEntry w p (w.clients c).netloc (some { entry with queue := rest })
      exact Serves.post_after rests
        (clientRequest_serves (books.same rests.toSame) (rests.sound c sound) _)
    · split
      · exact Serves.of_rests books (Rests.setEntry w p _ _)
      · trivial

theorem rests_newClient
    (introduced : Introduced w)
    (books : Books w)
    (loop : Nat)
    (pool : Option Nat) :
    Rests w (w.newClient loop pool) := by
  have idle : (w.clients w.nextClient).request = none := by
    cases active : (w.clients w.nextClient).request with
    | none =>
        rfl
    | some r =>
        exact (Nat.lt_irrefl _ (introduced _ r active)).elim
  have rests :
      Rests w
        (w.setClient w.nextClient { loop := loop, pool := pool }) := by
    refine Rests.setClient w _ idle.symm (books.idle _ idle).symm
      (fun _ => ⟨?_, ?_, ?_⟩) ?_ <;> simp
  exact
    { request := rests.request, field := rests.field, link := rests.link
      form := rests.form, streaming := rests.streaming
      completed := rests.completed, sent := rests.sent, sound := rests.sound
      hears := rests.hears }

theorem poolStart_serves
    (introduced : Introduced w)
    (books : Books w)
    (p r : Nat)
    (key : NetLoc)
    (entry : NetLocList) :
    (w.poolStart p r key entry).Post (Serves w) (Serves w) (fun _ => True) := by
  unfold poolStart
  have made := rests_newClient introduced books (w.pools p).loop (some p)
  have rests := made.trans
    (Rests.setEntry (w.newClient (w.pools p).loop (some p)) p key
      (some { entry with busy := entry.busy.insert w.nextClient }))
  have sound :
      Live ((w.newClient (w.pools p).loop (some p)).clients w.nextClient) := by
    constructor <;> simp [newClient, World.setClient]
  exact Serves.post_after rests
    (clientRequest_serves (books.same rests.toSame) sound r)

theorem rests_enqueue
    (w : World)
    (p r : Nat)
    (key : NetLoc)
    (entry : NetLocList) :
    Rests w (w.enqueue p r key entry) := by
  unfold enqueue
  dsimp only
  have queued := Rests.setEntry w p key
    (some
      { entry with
        queue := entry.queue ++ [{ ticket := entry.nextTicket, req := r }]
        generation := entry.generation + 1
        nextTicket := entry.nextTicket + 1 })
  generalize w.setEntry p key _ = middle at queued ⊢
  have timed :
      Rests middle
        (middle.setRequest r
          ((middle.requests r).ensureTimerActive (middle.pools p).loop
            middle.now)) := by
    rw [ensureTimerActive_eq]
    exact Rests.setRequest middle r rfl rfl rfl rfl
  exact (queued.trans timed).trans (Rests.emit _ fun _ => rfl)

/-- `Pool::request` -/
theorem poolRequest_serves
    (introduced : Introduced w)
    (books : Books w)
    (sound : ∀ d, Live (w.clients d))
    (p r : Nat) :
    (w.poolRequest p r).Post (Serves w) (Serves w) (fun _ => True) := by
  unfold poolRequest
  split
  · exact Serves.of_rests books (Rests.emit w fun _ => rfl)
  · have owned :
        Rests w (w.setRequest r { w.requests r with pool := some p }) :=
      Rests.setRequest w r rfl rfl rfl rfl
    have ownedBooks := books.same owned.toSame
    have ownedIntroduced :
        Introduced (w.setRequest r { w.requests r with pool := some p }) :=
      introduced
    dsimp only
    split
    · exact Serves.post_after owned
        (poolStart_serves ownedIntroduced ownedBooks p r _ {})
    · rename_i entry _
      split
      · rename_i d _
        have reused := Rests.setEntry
          (w.setRequest r { w.requests r with pool := some p }) p
          ((w.setRequest r { w.requests r with pool := some p }).netloc r)
          (some
            { entry with
              free := entry.free.erase d
              busy := entry.busy.insert d })
        have rests := owned.trans reused
        exact Serves.post_after rests
          (clientRequest_serves (books.same rests.toSame) (sound d) r)
      · split
        · exact Serves.post_after owned
            (poolStart_serves ownedIntroduced ownedBooks p r _ entry)
        · exact Serves.of_rests books
            (owned.trans (rests_enqueue _ p r _ entry))

theorem rests_inject
    (w : World)
    (a r : Nat)
    (contextUri : Uri)
    (topLevel : Bool)
    (time : Nat) :
    Rests w (w.inject a r contextUri topLevel time) := by
  unfold inject
  dsimp only
  refine Rests.trans ?_ (Rests.emit _ fun _ => rfl)
  exact Rests.setRequest w r rfl rfl rfl rfl

/-- `UserAgent::request` -/
theorem agentRequest_serves
    (introduced : Introduced w)
    (books : Books w)
    (sound : ∀ d, Live (w.clients d))
    (a r : Nat)
    (contextUri : Uri)
    (topLevel : Bool) :
    (w.agentRequest a r contextUri topLevel).Post (Serves w) (Serves w)
      (fun _ => True) := by
  unfold agentRequest
  dsimp only
  split
  · trivial
  · have listens :
        Rests w
          (w.setRequest r
            { w.requests r with
              responseListeners :=
                (w.requests r).responseListeners ++
                  [.agent a contextUri topLevel]
              redirectListeners :=
                (w.requests r).redirectListeners ++
                  [.agent a contextUri topLevel] }) :=
      Rests.setRequest w r rfl rfl rfl rfl
    generalize isListening :
      w.setRequest r
        { w.requests r with
          responseListeners :=
            (w.requests r).responseListeners ++ [.agent a contextUri topLevel]
          redirectListeners :=
            (w.requests r).redirectListeners ++ [.agent a contextUri topLevel]
        } = listening at listens ⊢
    have rests :=
      listens.trans (rests_inject listening a r contextUri topLevel
        (listening.agentNow a))
    have injectIntroduced :
        Introduced
          (listening.inject a r contextUri topLevel (listening.agentNow a)) := by
      rw [← isListening]
      exact introduced
    exact Serves.post_after rests
      (poolRequest_serves injectIntroduced (books.same rests.toSame)
        (fun d => rests.sound d (sound d)) _ r)

end Starting

/-! ## Ending requests -/

section Ending

variable {w middle next : World} {c r : Nat}

/-- The client has let its request go, and still has its place in the form. -/
structure Leaves (w : World) (c : Nat) (next : World) : Prop where
  clients : ∀ d, d ≠ c → next.clients d = w.clients d
  idle : (next.clients c).request = none
  field : (next.clients c).formField = (w.clients c).formField
  sound : Live (next.clients c)
  requests : next.requests = w.requests
  trace : next.trace = w.trace

/-- The client has let its request go, and the streamed item has been stopped. -/
structure Frees (w : World) (c r : Nat) (next : World) : Prop where
  clients : ∀ d, d ≠ c → next.clients d = w.clients d
  idle : (next.clients c).request = none
  field : (next.clients c).formField = -1
  sound : Live (next.clients c)
  requests : ∀ s, s ≠ r → next.requests s = w.requests s
  request :
    next.requests r =
      { w.requests r with streaming := (next.requests r).streaming }
  stopped :
    ∀ item,
      ((next.requests r).streaming item).running = false ∧
        (((w.requests r).streaming item).running = true →
          ((next.requests r).streaming item).streamer = none)
  trace : next.trace = w.trace

/-- The item where a client has come to is a file. -/
theorem Books.file
    {index : Nat}
    (books : Books w)
    (active : (w.clients c).request = some r)
    (field : (w.clients c).formField = index) :
    (∃ name mimeType filename,
        (w.requests r).form[index]? = some (.file name mimeType filename)) ∧
      ((w.requests r).streaming index).RunsFor c := by
  obtain ⟨fields, pieces, _, form, progress⟩ := books.holds c r active
  cases progress with
  | ended isOver _ =>
      rw [field] at isOver
      omega
  | item other isItem _ _ sent streaming =>
      rw [field] at isItem
      have same : index = other := by exact_mod_cast isItem
      subst same
      obtain ⟨first, item, rest, _, _, isItems, isLength, isStreamed, _⟩ :=
        sent.reaches
      refine ⟨?_, streaming⟩
      rw [← form, isItems, ← isLength, List.getElem?_append_right (Nat.le_refl _),
        Nat.sub_self]
      cases item with
      | file name mimeType filename =>
          exact ⟨name, mimeType, filename, rfl⟩
      | _ =>
          cases isStreamed

/-- Only the item is streamed where the client of the request has come to. -/
theorem Books.streams
    {item : Nat}
    (books : Books w)
    (active : (w.clients c).request = some r)
    (runs : ((w.requests r).streaming item).running = true) :
    (w.clients c).formField = (item : Nat) := by
  obtain ⟨d, also, field⟩ := books.running r item runs
  have linked := books.linked c r active
  rw [books.linked d r also] at linked
  cases linked
  exact field

theorem Leaves.stopForm
    (leaves : Leaves w c middle)
    (books : Books w)
    (active : (w.clients c).request = some r) :
    (middle.stopForm c r).Post (Frees w c r) (fun _ => False) (fun _ => True) := by
  have soundStopped :
      ∀ {client : ClientSide.Client},
        client = { middle.clients c with formField := -1 } → Live client := by
    rintro client rfl
    exact ⟨leaves.sound.wired, leaves.sound.opened, leaves.sound.hears⟩
  unfold World.stopForm
  dsimp only
  split
  · rename_i isOver
    rw [leaves.field] at isOver
    have notRunning :
        ∀ item, ((w.requests r).streaming item).running ≠ true := by
      intro item runs
      have field := books.streams active runs
      omega
    have field : (w.clients c).formField = -1 := by
      obtain ⟨_, _, _, _, progress⟩ := books.holds c r active
      cases progress with
      | ended field _ =>
          exact field
      | item index field _ _ _ _ =>
          omega
    refine ⟨leaves.clients, leaves.idle, leaves.field.trans field, leaves.sound,
      fun s _ => by rw [leaves.requests], ?_, fun item => ⟨?_, fun runs => ?_⟩,
      leaves.trace⟩
    · rw [leaves.requests]
    · rw [leaves.requests]
      exact Bool.eq_false_iff.mpr (notRunning item)
    · exact (notRunning item runs).elim
  · rename_i notOver
    rw [leaves.field] at notOver
    obtain ⟨index, isIndex⟩ := Int.eq_ofNat_of_zero_le (not_lt.mp notOver)
    obtain ⟨⟨name, mimeType, filename, isFile⟩, streaming⟩ :=
      books.file active isIndex
    rw [leaves.field, leaves.requests, isIndex, Int.toNat_natCast, isFile]
    simp only [streaming.1, Option.isNone_some, Bool.false_eq_true, if_false]
    have shape :
        ∀ item, item ≠ index →
          ((w.requests r).streaming item).running ≠ true := by
      intro item other runs
      have field := books.streams active runs
      rw [isIndex] at field
      exact other (by exact_mod_cast field.symm)
    refine ⟨?_, ?_, ?_, ?_, ?_, ?_, ?_, leaves.trace⟩
    · intro d other
      simp only [World.setClient, World.setRequest, ne_eq, other,
        not_false_eq_true, Function.update_of_ne]
      exact leaves.clients d other
    · simpa [World.setClient, World.setRequest] using leaves.idle
    · simp [World.setClient]
    · exact soundStopped (by simp [World.setClient, World.setRequest])
    · intro s other
      simp only [World.setClient, World.setRequest, ne_eq, other,
        not_false_eq_true, Function.update_of_ne]
      rw [leaves.requests]
    · simp [World.setClient, World.setRequest]
    · intro item
      by_cases here : item = index
      · subst item
        simp [World.setClient, World.setRequest]
      · simp only [World.setClient, World.setRequest, Function.update_self,
          ne_eq, here, not_false_eq_true, Function.update_of_ne]
        exact ⟨Bool.eq_false_iff.mpr (shape item here),
          fun runs => (shape item here runs).elim⟩

theorem Frees.rested
    (frees : Frees w c r next) :
    Frees w c r (next.rested c) := by
  have same :
      ∀ d, d ≠ c → (next.rested c).clients d = next.clients d := by
    intro d other
    simp [World.rested, World.setClient, other]
  refine ⟨fun d other => (same d other).trans (frees.clients d other), ?_, ?_, ?_,
    frees.requests, frees.request, frees.stopped, frees.trace⟩
  · simpa [World.rested, World.setClient] using frees.idle
  · simpa [World.rested, World.setClient] using frees.field
  · have sound := frees.sound
    exact ⟨by simpa [World.rested, World.setClient] using sound.wired,
      by simpa [World.rested, World.setClient] using sound.opened,
      by simpa [World.rested, World.setClient] using sound.hears⟩

theorem Frees.books
    (frees : Frees w c r next)
    (books : Books w)
    (active : (w.clients c).request = some r) :
    Books next := by
  have linked := books.linked c r active
  have other :
      ∀ d s, (next.clients d).request = some s →
        d ≠ c ∧ (w.clients d).request = some s ∧ s ≠ r := by
    intro d s isActive
    have notHere : d ≠ c := by
      rintro rfl
      rw [frees.idle] at isActive
      cases isActive
    rw [frees.clients d notHere] at isActive
    refine ⟨notHere, isActive, ?_⟩
    rintro rfl
    have also := books.linked d s isActive
    rw [linked] at also
    exact notHere (Option.some.inj also).symm
  refine
    { linked := ?_, idle := ?_, holds := ?_, running := ?_, fresh := ?_
      sent := ?_ }
  · intro d s isActive
    obtain ⟨_, was, different⟩ := other d s isActive
    rw [frees.requests s different]
    exact books.linked d s was
  · intro d none
    by_cases here : d = c
    · rw [here]
      exact frees.field
    · rw [frees.clients d here] at none ⊢
      exact books.idle d none
  · intro d s isActive
    obtain ⟨notHere, was, different⟩ := other d s isActive
    obtain ⟨fields, pieces, sent, form, progress⟩ := books.holds d s was
    refine ⟨fields, pieces, by rw [frees.trace]; exact sent, ?_, ?_⟩
    · rw [frees.requests s different]
      exact form
    · cases progress with
      | ended field complete =>
          refine .ended ?_ ?_
          · rw [frees.clients d notHere]
            exact field
          · rw [frees.requests s different]
            exact complete
      | item index field streams incomplete isSent streaming =>
          refine .item index ?_ streams ?_ isSent ?_
          · rw [frees.clients d notHere]
            exact field
          · rw [frees.requests s different]
            exact incomplete
          · rw [frees.requests s different]
            exact streaming
  · intro s item runs
    by_cases here : s = r
    · subst s
      rw [(frees.stopped item).1] at runs
      cases runs
    · rw [frees.requests s here] at runs
      obtain ⟨d, isActive, field⟩ := books.running s item runs
      have notHere : d ≠ c := by
        rintro rfl
        rw [active] at isActive
        exact here (Option.some.inj isActive).symm
      refine ⟨d, ?_, ?_⟩ <;> rw [frees.clients d notHere]
      · exact isActive
      · exact field
  · intro s unlinked
    by_cases here : s = r
    · subst s
      rw [frees.request] at unlinked
      rw [show (w.requests r).client = none from unlinked] at linked
      cases linked
    · rw [frees.requests s here] at unlinked ⊢
      exact books.fresh s unlinked
  · intro s fields pieces sent streams
    rw [frees.trace] at sent
    exact books.sent s fields pieces sent streams

/-- What a step does to the uploads that does not write the rest of a form. -/
structure Turns (w next : World) : Prop where
  books : Books next
  sound : ∀ c, Live (next.clients c)
  hears : ∀ c, Hears w c → Hears next c
  begun :
    ∀ c r,
      (next.clients c).request = some r →
      (w.clients c).request = some r ∨ (w.requests r).client = none
  sent : ∀ r, sentOf r next.trace = sentOf r w.trace ∨ Begins w next r

theorem Serves.turns
    (serves : Serves w next)
    (sound : ∀ c, Live (w.clients c)) :
    Turns w next :=
  ⟨serves.books, fun c => serves.sound c (sound c), serves.hears, serves.begun,
    serves.sent⟩

/-- A request that is not active any more is not written any more. -/
structure Silenced (w : World) (r : Nat) (next : World) : Prop where
  gone : ∀ c, (next.clients c).request ≠ some r
  sent : sentOf r next.trace = sentOf r w.trace
  stopped :
    ∀ item,
      ((next.requests r).streaming item).running = false ∧
        (((w.requests r).streaming item).running = true →
          ((next.requests r).streaming item).streamer = none)

/-- A client has let its request go, and has been given another one, or not. -/
structure LetsGo (w : World) (c r : Nat) (next : World) : Prop where
  turns : Turns w next
  linked : (next.requests r).client = some c
  silenced : Silenced w r next

/-- What a client needs that is about to let its request go. -/
structure Halts (w : World) (c : Nat) (next : World) : Prop where
  same : Same w next
  others : ∀ d, d ≠ c → next.clients d = w.clients d
  wired :
    (next.clients c).tcp.status ≠ .closed →
    (next.clients c).tcp.connection.isSome = true

theorem Halts.refl
    (sound : Live (w.clients c)) :
    Halts w c w :=
  ⟨Same.refl w, fun _ _ => rfl, sound.wired⟩

theorem Halts.setClient
    {client : ClientSide.Client}
    (halts : Halts w c middle)
    (request : client.request = (middle.clients c).request)
    (field : client.formField = (middle.clients c).formField)
    (wired :
      client.tcp.status ≠ .closed → client.tcp.connection.isSome = true) :
    Halts w c (middle.setClient c client) where
  same := halts.same.trans (Same.setClient middle c request field)
  others d other := by
    simp only [World.setClient, ne_eq, other, not_false_eq_true,
      Function.update_of_ne]
    exact halts.others d other
  wired := by
    simpa [World.setClient] using wired

theorem Frees.turns
    {freed : World}
    (frees : Frees middle c r freed)
    (halts : Halts w c middle)
    (sound : ∀ d, Live (w.clients d))
    (serves : Serves freed next) :
    Turns w next := by
  have link :
      ∀ s, (freed.requests s).client = (w.requests s).client := by
    intro s
    refine Eq.trans ?_ (halts.same.link s)
    by_cases here : s = r
    · rw [here, frees.request]
    · rw [frees.requests s here]
  have others : ∀ d, d ≠ c → freed.clients d = w.clients d :=
    fun d other => (frees.clients d other).trans (halts.others d other)
  refine ⟨serves.books, ?_, ?_, ?_, ?_⟩
  · intro d
    refine serves.sound d ?_
    by_cases here : d = c
    · rw [here]
      exact frees.sound
    · rw [others d here]
      exact sound d
  · intro d isHeard
    refine serves.hears d ?_
    unfold Hears at isHeard ⊢
    by_cases here : d = c
    · rw [here, frees.idle]
      simp
    · rw [others d here]
      exact isHeard
  · intro d s isActive
    rcases serves.begun d s isActive with before | unlinked
    · have notHere : d ≠ c := by
        rintro rfl
        rw [frees.idle] at before
        cases before
      rw [others d notHere] at before
      exact Or.inl before
    · exact Or.inr ((link s).symm.trans unlinked)
  · intro s
    rcases serves.sent s with same | ⟨unlinked, begun⟩
    · rw [frees.trace] at same
      exact Or.inl (same.trans (halts.same.sent s))
    · exact Or.inr ⟨(link s).symm.trans unlinked, begun⟩

theorem Frees.letsGo
    {freed : World}
    (frees : Frees middle c r freed)
    (halts : Halts w c middle)
    (books : Books w)
    (sound : ∀ d, Live (w.clients d))
    (active : (w.clients c).request = some r)
    (serves : Serves freed next) :
    LetsGo w c r next := by
  have linked := books.linked c r active
  have booksThere := books.same halts.same
  have activeThere : (middle.clients c).request = some r :=
    (halts.same.request c).trans active
  have linkedThere : (freed.requests r).client = some c := by
    rw [frees.request]
    exact (halts.same.link r).trans linked
  have turns := frees.turns halts sound serves
  have gone : ∀ d, (next.clients d).request ≠ some r := by
    intro d isActive
    rcases serves.begun d r isActive with before | unlinked
    · have also := (frees.books booksThere activeThere).linked d r before
      rw [linkedThere] at also
      cases also
      rw [frees.idle] at before
      cases before
    · rw [linkedThere] at unlinked
      cases unlinked
  refine ⟨turns, serves.link r c linkedThere, gone, ?_, ?_⟩
  · rcases turns.sent r with same | ⟨unlinked, _⟩
    · exact same
    · rw [linked] at unlinked
      cases unlinked
  · rw [serves.streaming r c linkedThere, ← halts.same.streams linked]
    exact frees.stopped

theorem releaseClient_letsGo
    (halts : Halts w c middle)
    (books : Books w)
    (sound : ∀ d, Live (w.clients d))
    (active : (w.clients c).request = some r)
    (response : Option Response)
    (error : Option ErrorCode) :
    ((middle.detached c).releaseClient c r response error).Post
      (LetsGo w c r) (LetsGo w c r) (fun _ => True) := by
  have booksThere := books.same halts.same
  have activeThere : (middle.clients c).request = some r :=
    (halts.same.request c).trans active
  obtain ⟨drops, released⟩ :=
    releaseClient_cases (middle.detached c) c r response error
  rw [released]
  generalize shape :
    (if drops = true then
      (middle.detached c).reset c
    else
      (middle.detached c).weak c true) = kept
  have either :
      ∀ drops : Bool,
        Leaves middle c
          (if drops = true then
            (middle.detached c).reset c
          else
            (middle.detached c).weak c true) := by
    intro drops
    cases drops
    · refine ⟨fun d other => ?_, ?_, ?_, ⟨?_, ?_, ?_⟩, rfl, rfl⟩
      · simp [World.weak, World.setTcp, World.setClient, World.detached, other]
      · simp [World.weak, World.setTcp, World.setClient, World.detached]
      · simp [World.weak, World.setTcp, World.setClient, World.detached]
      · simpa [World.weak, World.setTcp, World.setClient, World.detached]
          using halts.wired
      · simp [World.weak, World.setTcp, World.setClient, World.detached]
      · simp [World.weak, World.setTcp, World.setClient, World.detached]
    · refine ⟨fun d other => ?_, ?_, ?_, ⟨?_, ?_, ?_⟩, rfl, rfl⟩
      · simp [World.reset, World.setTcp, World.setClient, World.detached, other]
      all_goals
        simp [World.reset, World.setTcp, World.setClient, World.detached]
  have leaves : Leaves middle c kept := shape ▸ either _
  refine Straight.Post.andThen
    ((leaves.stopForm booksThere activeThere).imp (fun _ => id)
      (fun _ => False.elim) (fun _ => id)) ?_
  intro stopped stoppedFrees
  have frees := stoppedFrees.rested
  have freedBooks := frees.books booksThere activeThere
  split
  · exact frees.letsGo halts books sound active
      (Serves.of_rests freedBooks (Rests.refl _))
  · rename_i p _
    exact (putback_serves freedBooks frees.sound p).imp
      (fun _ => frees.letsGo halts books sound active)
      (fun _ => frees.letsGo halts books sound active) (fun _ => id)

theorem sentOf_ending
    (w : World)
    (r s : Nat) :
    sentOf s (w.ending r).trace = sentOf s w.trace :=
  sentOf_append w.trace (by simp [isPieceOf])

theorem Books.ending
    (books : Books w)
    (notActive : ∀ d, (w.clients d).request ≠ some r) :
    Books (w.ending r) := by
  have ofOther : ∀ s, s ≠ r → (w.ending r).requests s = w.requests s := by
    intro s other
    simp [World.ending, World.emit, World.setRequest, other]
  have ofRequest : (w.ending r).requests r = (w.requests r).finished := by
    simp [World.ending, World.emit, World.setRequest]
  have isOther :
      ∀ d s, (w.clients d).request = some s → s ≠ r := by
    rintro d s isActive rfl
    exact notActive d isActive
  refine
    { linked := ?_, idle := books.idle, holds := ?_, running := ?_, fresh := ?_
      sent := ?_ }
  · intro d s isActive
    rw [ofOther s (isOther d s isActive)]
    exact books.linked d s isActive
  · intro d s isActive
    have other := isOther d s isActive
    obtain ⟨fields, pieces, isSent, form, progress⟩ := books.holds d s isActive
    refine ⟨fields, pieces, (sentOf_ending w r s).trans isSent, ?_, ?_⟩
    · rw [ofOther s other]
      exact form
    · cases progress with
      | ended field complete =>
          refine .ended field ?_
          rw [ofOther s other]
          exact complete
      | item index field streams incomplete isSent streaming =>
          refine .item index field streams ?_ isSent ?_ <;> rw [ofOther s other]
          · exact incomplete
          · exact streaming
  · intro s item runs
    have same :
        ((w.ending r).requests s).streaming = (w.requests s).streaming := by
      by_cases here : s = r
      · rw [here, ofRequest]
        rfl
      · rw [ofOther s here]
    rw [same] at runs
    exact books.running s item runs
  · intro s unlinked
    by_cases here : s = r
    · rw [here, ofRequest]
      rfl
    · rw [ofOther s here] at unlinked ⊢
      exact books.fresh s unlinked
  · intro s fields pieces isSent streams
    rw [sentOf_ending w r s] at isSent
    exact books.sent s fields pieces isSent streams

theorem Turns.ending
    (turns : Turns w next)
    (notActive : ∀ d, (next.clients d).request ≠ some r) :
    Turns w (next.ending r) := by
  refine ⟨turns.books.ending notActive, turns.sound, turns.hears, turns.begun,
    fun s => ?_⟩
  rcases turns.sent s with same | ⟨unlinked, d, fields, isActive, isSent⟩
  · exact Or.inl ((sentOf_ending next r s).trans same)
  · exact Or.inr
      ⟨unlinked, d, fields, isActive, (sentOf_ending next r s).trans isSent⟩

theorem LetsGo.ending
    (letsGo : LetsGo w c r next) :
    Turns w (next.ending r) ∧ Silenced w r (next.ending r) := by
  obtain ⟨turns, linked, gone, sent, stopped⟩ := letsGo
  refine ⟨turns.ending gone, gone, (sentOf_ending next r r).trans sent, ?_⟩
  have ofRequest : (next.ending r).requests r = (next.requests r).finished := by
    simp [World.ending, World.emit, World.setRequest]
  rw [ofRequest]
  exact stopped

/-- What a step does that ends the active request of a client. -/
structure Quits (w : World) (c r : Nat) (error : Option ErrorCode) (step : Step) :
    Prop where
  next :
    ∀ next frames,
      step = .next next frames →
      Turns w next ∧
        Silenced w r next ∧
        ∃ answer, frames = endFrames r answer (w.finishError r error)
  raise : ∀ next, step = .raise next → Turns w next

theorem finishRequest_quits
    (halts : Halts w c middle)
    (books : Books w)
    (sound : ∀ d, Live (w.clients d))
    (active : (w.clients c).request = some r)
    (error : Option ErrorCode) :
    Quits w c r error (middle.finishRequest c error) := by
  have activeThere : (middle.clients c).request = some r :=
    (halts.same.request c).trans active
  have sameError : middle.finishError r error = w.finishError r error := by
    unfold finishError
    rw [halts.same.completed r]
  unfold finishRequest
  simp only [activeThere]
  split
  · constructor
    · rintro next frames ⟨⟩
    · rintro next ⟨⟩
  · have post := releaseClient_letsGo halts books sound active
      (middle.clients c).response (middle.finishError r error)
    constructor
    · intro next frames executed
      obtain ⟨released, isReleased, finished⟩ := Straight.before_next executed
      rw [isReleased] at post
      obtain ⟨turns, silenced⟩ := LetsGo.ending post
      cases finished
      exact ⟨turns, silenced, _, by rw [sameError]; rfl⟩
    · intro next executed
      rcases Straight.before_raise executed with released | ⟨_, _, finished⟩
      · rw [released] at post
        exact post.turns
      · cases finished

/-- No upload that is not complete is reported as a success. -/
def Reports (w : World) (frames : List Frame) : Prop :=
  ∀ c r answer,
    Uploading w c r → .fire (.responseEvent r answer none) ∉ frames

/-- What a step does to the uploads if it writes no more of a form. -/
structure Writes (w : World) (step : Step) : Prop where
  next :
    ∀ next frames, step = .next next frames → Turns w next ∧ Reports w frames
  raise : ∀ next, step = .raise next → Turns w next

theorem Books.uploading
    (books : Books w)
    (uploading : Uploading w c r) :
    (w.requests r).transferCompleted = false ∧ w.InForm c := by
  obtain ⟨active, fields, pieces, sent, streams, notFull⟩ := uploading
  obtain ⟨_, _, also, _, progress⟩ := books.holds c r active
  rw [sent] at also
  cases also
  cases progress with
  | ended _ complete =>
      exact (notFull ((complete streams).2.full_iff (separate_formPlan r) |>.mpr
        rfl)).elim
  | item index field _ incomplete _ _ =>
      refine ⟨incomplete, ?_⟩
      unfold InForm
      rw [field]
      exact Int.natCast_nonneg index

theorem Quits.writes
    {error : Option ErrorCode}
    {step : Step}
    (quits : Quits w c r error step)
    (books : Books w)
    (active : (w.clients c).request = some r) :
    Writes w step := by
  constructor
  · intro next frames executed
    obtain ⟨turns, _, answer, rfl⟩ := quits.next next frames executed
    refine ⟨turns, fun d s other uploading member => ?_⟩
    simp only [endFrames, List.mem_cons, Frame.fire.injEq, reduceCtorEq,
      Callback.responseEvent.injEq, false_or, List.not_mem_nil, or_false] at member
    obtain ⟨rfl, _, noError⟩ := member
    obtain ⟨incomplete, _⟩ := books.uploading uploading
    unfold finishError at noError
    rw [incomplete] at noError
    cases error <;> simp at noError
  · exact quits.raise

theorem reports_nil (w : World) : Reports w [] := by
  simp [Reports]

theorem Serves.writes
    {frames : List Frame}
    (serves : Serves w next)
    (sound : ∀ d, Live (w.clients d))
    (reports : Reports w frames) :
    Writes w (.next next frames) := by
  constructor
  · rintro next frames ⟨⟩
    exact ⟨serves.turns sound, reports⟩
  · rintro next ⟨⟩

theorem writes_fault {reason : Fault} : Writes w (.fault reason) := by
  constructor
  · rintro next frames ⟨⟩
  · rintro next ⟨⟩

/-- `Client::finish_request` -/
theorem finishRequest_writes
    (halts : Halts w c middle)
    (books : Books w)
    (sound : ∀ d, Live (w.clients d))
    (error : Option ErrorCode) :
    Writes w (middle.finishRequest c error) := by
  cases active : (w.clients c).request with
  | none =>
      have idle : (middle.clients c).request = none :=
        (halts.same.request c).trans active
      have fails : middle.finishRequest c error = .fault .nullRequest := by
        simp [finishRequest, idle]
      rw [fails]
      exact writes_fault
  | some r =>
      exact (finishRequest_quits halts books sound active error).writes books active

/-- Nothing is cancelled on a client that has no request. -/
theorem Halts.turns
    (halts : Halts w c middle)
    (books : Books w)
    (sound : ∀ d, Live (w.clients d))
    (idle : (w.clients c).request = none) :
    Turns w middle := by
  have idleThere : (middle.clients c).request = none :=
    (halts.same.request c).trans idle
  refine ⟨books.same halts.same, fun d => ?_, fun d isHeard => ?_,
    fun d s isActive => ?_, fun s => Or.inl (halts.same.sent s)⟩
  · by_cases here : d = c
    · rw [here]
      exact ⟨halts.wired, by simp [idleThere], by simp [idleThere]⟩
    · rw [halts.others d here]
      exact sound d
  · unfold Hears at isHeard ⊢
    by_cases here : d = c
    · rw [here, idleThere]
      simp
    · rw [halts.others d here]
      exact isHeard
  · exact Or.inl ((halts.same.request d).symm.trans isActive)

theorem Halts.cancelling
    (halts : Halts w c middle) :
    Halts w c (middle.cancelling c) :=
  halts.setClient rfl rfl halts.wired

theorem cancel_quits
    (halts : Halts w c middle)
    (books : Books w)
    (sound : ∀ d, Live (w.clients d))
    (active : (w.clients c).request = some r)
    (error : Option ErrorCode) :
    Quits w c r error (middle.cancel c error) := by
  have activeThere : (middle.clients c).request = some r :=
    (halts.same.request c).trans active
  have cancels :
      middle.cancel c error = (middle.cancelling c).finishRequest c error := by
    unfold cancel
    rw [if_neg (by simp [activeThere])]
    rfl
  rw [cancels]
  exact finishRequest_quits halts.cancelling books sound active error

/-- `Client::cancel` -/
theorem cancel_writes
    (halts : Halts w c middle)
    (books : Books w)
    (sound : ∀ d, Live (w.clients d))
    (error : Option ErrorCode) :
    Writes w (middle.cancel c error) := by
  cases active : (w.clients c).request with
  | none =>
      have idle : (middle.clients c).request = none :=
        (halts.same.request c).trans active
      have stays : middle.cancel c error = .next middle [] := by
        simp [cancel, idle]
      rw [stays]
      constructor
      · rintro next frames ⟨⟩
        exact ⟨halts.turns books sound active, reports_nil w⟩
      · rintro next ⟨⟩
  | some r =>
      exact (cancel_quits halts books sound active error).writes books active

theorem Turns.refl
    (books : Books w)
    (sound : ∀ d, Live (w.clients d)) :
    Turns w w :=
  ⟨books, sound, fun _ => id, fun _ _ => Or.inl, fun _ => Or.inl rfl⟩

/-- `Pool::cancel_request` -/
theorem cancelRequest_writes
    (books : Books w)
    (sound : ∀ d, Live (w.clients d))
    (unlinked : (w.requests r).client = none)
    (p : Nat)
    (error : Option ErrorCode) :
    Writes w (w.cancelRequest p r error) := by
  have notActive : ∀ d, (w.clients d).request ≠ some r := by
    intro d isActive
    have linked := books.linked d r isActive
    rw [unlinked] at linked
    cases linked
  unfold cancelRequest
  dsimp only
  split
  · exact writes_fault
  · split
    · exact writes_fault
    · constructor
      · rintro next frames ⟨⟩
        refine ⟨(Turns.refl books sound).ending notActive, ?_⟩
        intro d s answer uploading member
        simp only [List.mem_append, List.mem_cons, Frame.fire.injEq, reduceCtorEq,
          Callback.responseEvent.injEq, false_or, List.not_mem_nil, or_false]
          at member
        obtain ⟨rfl, _, _⟩ := member
        exact notActive d uploading.1
      · rintro next ⟨⟩

/-- `Request::cancel` -/
theorem requestCancel_writes
    (books : Books w)
    (sound : ∀ d, Live (w.clients d))
    (r : Nat)
    (error : Option ErrorCode) :
    Writes w (w.requestCancel r error) := by
  unfold requestCancel
  dsimp only
  split
  · exact cancel_writes (Halts.refl (sound _)) books sound error
  · rename_i unlinked _
    exact cancelRequest_writes books sound unlinked _ error
  · exact (Serves.of_rests books (Rests.refl w)).writes sound (reports_nil w)

theorem Writes.after
    {step : Step}
    (rests : Rests w middle)
    (writes : Writes middle step) :
    Writes w step := by
  have turned : ∀ next, Turns middle next → Turns w next := by
    rintro next ⟨books, sound, hears, begun, sent⟩
    refine ⟨books, sound, fun d => hears d ∘ rests.hears d, fun d s isActive => ?_,
      fun s => ?_⟩
    · rcases begun d s isActive with before | unlinked
      · exact Or.inl ((rests.request d).symm.trans before)
      · exact Or.inr ((rests.link s).symm.trans unlinked)
    · rcases sent s with same | ⟨unlinked, started⟩
      · exact Or.inl (same.trans (rests.sent s))
      · exact Or.inr ⟨(rests.link s).symm.trans unlinked, started⟩
  constructor
  · intro next frames executed
    obtain ⟨turns, reports⟩ := writes.next next frames executed
    refine ⟨turned next turns, fun d s answer uploading => ?_⟩
    obtain ⟨isActive, fields, pieces, isSent, others⟩ := uploading
    exact reports d s answer
      ⟨(rests.request d).trans isActive, fields, pieces,
        (rests.sent s).trans isSent, others⟩
  · intro next executed
    exact turned next (writes.raise next executed)

theorem Writes.andFrames
    {step : Step}
    {rest : List Frame}
    (writes : Writes w step)
    (reports : Reports w rest) :
    Writes w (ClientSide.andFrames step rest) := by
  constructor
  · intro next frames executed
    obtain ⟨first, isNext, rfl⟩ := andFrames_next executed
    obtain ⟨turns, none⟩ := writes.next next first isNext
    refine ⟨turns, fun d s answer uploading member => ?_⟩
    exact (List.mem_append.mp member).elim (none d s answer uploading)
      (reports d s answer uploading)
  · intro next executed
    exact writes.raise next (andFrames_raise executed)

/-- The timer of a request has fired. -/
theorem onTimer_writes
    (books : Books w)
    (sound : ∀ d, Live (w.clients d))
    (r : Nat) :
    Writes w (w.onTimer r) := by
  unfold onTimer
  dsimp only
  split
  · exact cancel_writes (Halts.refl (sound _)) books sound _
  · rename_i unlinked _
    exact cancelRequest_writes books sound unlinked _ _
  · exact (Serves.of_rests books (Rests.refl w)).writes sound (reports_nil w)

end Ending

/-! ## Receiving -/

section Receiving

variable {w middle next : World} {c r : Nat}

/-- What a step does to the uploads that may announce a redirect. -/
structure Handles (w : World) (step : Step) : Prop where
  next :
    ∀ next frames,
      step = .next next frames →
      Reports w frames ∧
        (Turns w next ∨
          Same w next ∧ ∃ frame ∈ frames, isRedirectFrame frame = true)
  raise : ∀ next, step = .raise next → Turns w next

theorem Writes.handles
    {step : Step}
    (writes : Writes w step) :
    Handles w step := by
  constructor
  · intro next frames executed
    obtain ⟨turns, reports⟩ := writes.next next frames executed
    exact ⟨reports, Or.inl turns⟩
  · exact writes.raise

theorem Handles.andFrames
    {step : Step}
    {rest : List Frame}
    (handles : Handles w step)
    (reports : Reports w rest) :
    Handles w (ClientSide.andFrames step rest) := by
  constructor
  · intro next frames executed
    obtain ⟨first, isNext, rfl⟩ := andFrames_next executed
    obtain ⟨none, turns⟩ := handles.next next first isNext
    refine ⟨fun d s answer uploading member => ?_, ?_⟩
    · exact (List.mem_append.mp member).elim (none d s answer uploading)
        (reports d s answer uploading)
    · refine turns.imp_right fun ⟨same, frame, member, isFrame⟩ => ?_
      exact ⟨same, frame, List.mem_append_left rest member, isFrame⟩
  · intro next executed
    exact handles.raise next (andFrames_raise executed)

theorem Halts.counting
    (halts : Halts w c middle)
    (r : Nat) :
    Halts w c (middle.counting r) :=
  ⟨halts.same.trans
      (Same.setRequest middle r rfl (fun _ => rfl) (Or.inl rfl) rfl),
    halts.others, halts.wired⟩

theorem analyzeRequest_handles
    (halts : Halts w c middle)
    (continues :
      ∀ response,
        (middle.clients c).response = some response →
        response.code = 100 →
        Rests w middle)
    (books : Books w)
    (sound : ∀ d, Live (w.clients d)) :
    Handles w (middle.analyzeRequest c) := by
  have analyses := analyzeRequest_analyses middle c
  generalize middle.analyzeRequest c = step at analyses ⊢
  cases analyses with
  | fails reason =>
      exact writes_fault.handles
  | continues r answered isContinue =>
      have serves := Serves.of_rests books (continues _ answered isContinue)
      exact (serves.writes sound (by simp [Reports])).handles
  | unexpected _ _ =>
      exact (cancel_writes halts books sound _).handles
  | @limited r _ _ _ _ =>
      exact (cancel_writes (halts.counting r) books sound _).handles
  | @unlocated r _ _ _ _ _ =>
      exact (cancel_writes (halts.counting r) books sound _).handles
  | @redirects r response location after context redirects =>
      have shape := redirects.shape
      constructor
      · rintro next frames ⟨⟩
        refine ⟨by simp [Reports], Or.inr ⟨?_, _, List.mem_cons_self, rfl⟩⟩
        rw [shape]
        refine halts.same.trans (Same.trans ?_ (Same.setClient _ c rfl rfl))
        exact Same.setRequest middle r rfl (fun _ => rfl) (Or.inl rfl) rfl
      · rintro next ⟨⟩
  | finishes _ =>
      exact (finishRequest_writes halts books sound none).handles

/-- `on_read`, where the stream of the client has a parser for its request. -/
theorem onReadLoop_handles
    (books : Books w)
    (sound : ∀ d, Live (w.clients d))
    (hears : Hears w c)
    (buffer : Nat)
    (buf : List Parsed) :
    Handles w (w.onReadLoop c buffer buf) := by
  have stays : ∀ frames, Reports w frames → Handles w (.next w frames) :=
    fun frames reports =>
      ((Serves.of_rests books (Rests.refl w)).writes sound reports).handles
  cases buf with
  | nil =>
      exact stays [] (reports_nil w)
  | cons result rest =>
      cases context : (w.clients c).parsing with
      | none =>
          have idle : (w.clients c).request = none := by
            cases active : (w.clients c).request with
            | none =>
                rfl
            | some r =>
                have parses := hears (by simp [active])
                simp [context] at parses
          simp only [onReadLoop, context]
          exact ((Serves.of_rests books (Rests.reset w c idle)).writes sound
            (reports_nil w)).handles
      | some parsing =>
          have halts : Halts w c (w.parseShift c buffer parsing result) := by
            have parsed :
                Halts w c
                  (w.setClient c
                    { w.clients c with
                      response := some result.response
                      parsing :=
                        if result.keepsContext then some parsing else none }) :=
              (Halts.refl (sound c)).setClient rfl rfl (sound c).wired
            exact ⟨parsed.same.trans (Same.emit _ fun _ => rfl), parsed.others,
              parsed.wired⟩
          have kept :
              result.keepsContext = true →
              Rests w (w.parseShift c buffer parsing result) := by
            intro keeps
            unfold parseShift
            refine Rests.trans ?_ (Rests.emit _ fun _ => rfl)
            refine Rests.setClient w c rfl rfl (fun isSound => ?_) ?_
            · exact ⟨isSound.wired, isSound.opened,
                fun _ => Or.inl (by simp [keeps])⟩
            · exact fun _ _ => by simp [keeps]
          have goesOn :
              ∀ frames,
                result.keepsContext = true →
                Reports w frames →
                Handles w
                  (.next (w.parseShift c buffer parsing result) frames) :=
            fun frames keeps reports =>
              ((Serves.of_rests books (kept keeps)).writes sound reports).handles
          simp only [onReadLoop, context]
          cases result with
          | error error response =>
              exact (cancel_writes halts books sound _).handles
          | headers =>
              exact goesOn [] rfl (reports_nil w)
          | body response =>
              dsimp only
              unfold receivePart
              split
              · exact goesOn [] rfl (reports_nil w)
              · split
                · exact writes_fault.handles
                · split
                  · exact goesOn [] rfl (reports_nil w)
                  · exact goesOn _ rfl (by simp [Reports])
          | done response =>
              refine Handles.andFrames ?_ (by simp [Reports])
              refine analyzeRequest_handles halts ?_ books sound
              intro answer answered isContinue
              refine kept ?_
              have same :
                  ((w.parseShift c buffer parsing (.done response)).clients
                    c).response = some (Parsed.done response).response := by
                simp [parseShift, World.emit, World.setClient]
              rw [same] at answered
              cases answered
              simpa [Parsed.keepsContext, Parsed.response] using isContinue

end Receiving

/-! ## Streamers -/

section Streamers

variable {w next : World} {c r index : Nat}

/-- The streamer of an item has finished. -/
def finishing (w : World) (r index : Nat) : World :=
  w.setRequest r
    { w.requests r with
      streaming := Function.update (w.requests r).streaming index
        { (w.requests r).streaming index with running := false } }

/-- Stopping it does not matter any more. -/
theorem stopForm_finishing
    {item : FormItem}
    (field : (w.clients c).formField = index)
    (isItem : (w.requests r).form[index]? = some item)
    (isStreamed : item.isImmediate = false) :
    (w.finishing r index).stopForm c r = w.stopForm c r := by
  have notOver : ¬ ((index : Nat) : Int) < 0 := by
    omega
  cases item with
  | file name mimeType filename =>
      simp only [World.stopForm, finishing, World.setRequest, field, if_neg notOver,
        Int.toNat_natCast, Function.update_self, isItem, World.setClient,
        Function.update_idem]
  | _ =>
      cases isStreamed

theorem finishRequest_finishing
    {item : FormItem}
    (active : (w.clients c).request = some r)
    (field : (w.clients c).formField = index)
    (isItem : (w.requests r).form[index]? = some item)
    (isStreamed : item.isImmediate = false)
    (error : Option ErrorCode) :
    (w.finishing r index).finishRequest c error = w.finishRequest c error := by
  have activeThere : ((w.finishing r index).clients c).request = some r := active
  have sameError :
      (w.finishing r index).finishError r error = w.finishError r error := by
    simp [finishError, finishing, World.setRequest]
  have sameResponse :
      ((w.finishing r index).clients c).response = (w.clients c).response := rfl
  unfold finishRequest
  simp only [active, activeThere, sameError, sameResponse]
  split
  · rfl
  · have released :
        ((w.finishing r index).detached c).releaseClient c r
            (w.clients c).response (w.finishError r error) =
          (w.detached c).releaseClient c r (w.clients c).response
            (w.finishError r error) := by
      have keepAlive :
          (((w.finishing r index).detached c).requests r).keepAlive =
            ((w.detached c).requests r).keepAlive := by
        simp [finishing, World.setRequest, World.detached, World.setClient]
      have reset :
          ((w.finishing r index).detached c).reset c =
            ((w.detached c).reset c).finishing r index := rfl
      have weak :
          ((w.finishing r index).detached c).weak c true =
            ((w.detached c).weak c true).finishing r index := rfl
      have either :
          ∀ drops : Bool,
            (if drops = true then
                ((w.detached c).reset c).finishing r index
              else
                ((w.detached c).weak c true).finishing r index).stopForm c r =
              (if drops = true then
                (w.detached c).reset c
              else
                (w.detached c).weak c true).stopForm c r := by
        intro drops
        cases drops
        · refine stopForm_finishing ?_ isItem isStreamed
          simpa [World.weak, World.setTcp, World.setClient, World.detached]
            using field
        · refine stopForm_finishing ?_ isItem isStreamed
          simpa [World.reset, World.setTcp, World.setClient, World.detached]
            using field
      unfold releaseClient
      dsimp only
      rw [keepAlive, reset, weak, either]
    rw [released]

/-- A streamer that runs is the one of the item that its client has come to. -/
theorem Books.runner
    (books : Books w)
    (runs : ((w.requests r).streaming index).running = true)
    (streamer : ((w.requests r).streaming index).streamer = some c) :
    (w.clients c).request = some r ∧ (w.clients c).formField = (index : Nat) := by
  obtain ⟨d, active, field⟩ := books.running r index runs
  have streaming := (books.file active field).2
  have same : c = d := Option.some.inj (streamer.symm.trans streaming.1)
  subst d
  exact ⟨active, field⟩

/-- A streamer has failed. -/
theorem formFileComplete_fails
    (books : Books w)
    (sound : ∀ d, Live (w.clients d))
    (runs : ((w.requests r).streaming index).running = true)
    (streamer : ((w.requests r).streaming index).streamer = some c)
    (error : ErrorCode) :
    Quits w c r (some error)
      ((w.finishing r index).formFileComplete c (some error)) := by
  obtain ⟨active, field⟩ := books.runner runs streamer
  obtain ⟨⟨name, mimeType, filename, isFile⟩, _⟩ := books.file active field
  have same :=
    finishRequest_finishing active field isFile rfl (some error)
  have quits :=
    finishRequest_quits (Halts.refl (sound c)) books sound active (some error)
  have calls :
      (w.finishing r index).formFileComplete c (some error) =
        (w.finishing r index).finishRequest c (some error) := rfl
  rw [calls, same]
  exact quits

/-- Where the upload of a request has come to after some more pieces. -/
inductive Advances
    (c r : Nat)
    (fields : RequestFields)
    (chunks : List Piece)
    (field : Int)
    (streaming : Nat → Streaming)
    (completed : Bool) :
    Prop where
  | ended :
      field = -1 →
      (fields.formStreaming = true →
        completed = true ∧ (formPlan r).Sent fields.form none chunks) →
      (∀ item, (streaming item).running = false) →
      Advances c r fields chunks field streaming completed
  | item (index : Nat) :
      field = index →
      fields.formStreaming = true →
      completed = false →
      (formPlan r).Sent fields.form (some index) chunks →
      (streaming index).RunsFor c →
      (∀ other, other ≠ index → (streaming other).running = false) →
      Advances c r fields chunks field streaming completed

/-- The rest of what a step does that writes a part of a form. -/
structure Extends
    (w : World)
    (r : Nat)
    (fields : RequestFields)
    (chunks : List Piece)
    (next : World) : Prop where
  books : Books next
  sound : ∀ d, Live (next.clients d)
  hears : ∀ d, Hears w d → Hears next d
  request : ∀ d, (next.clients d).request = (w.clients d).request
  sent : sentOf r next.trace = some (fields, chunks)
  others : ∀ s, s ≠ r → sentOf s next.trace = sentOf s w.trace

theorem sent_extends
    {field : Int}
    {queue : Nat}
    {streaming : Nat → Streaming}
    {completed : Bool}
    {fields : RequestFields}
    {before pieces : List Piece}
    (books : Books w)
    (sound : ∀ d, Live (w.clients d))
    (active : (w.clients c).request = some r)
    (isSent : sentOf r w.trace = some (fields, before))
    (form : fields.form = (w.requests r).form)
    (behind :
      ∀ piece ∈ pieces,
        piece.req = r ∧ ∀ other head, piece ≠ .head other head)
    (advances :
      Advances c r fields (before ++ pieces) field streaming completed)
    (isNext : next = w.sent c r field queue streaming completed pieces) :
    Extends w r fields (before ++ pieces) next := by
  obtain ⟨connection, hasConnection⟩ :=
    Option.isSome_iff_exists.mp
      ((sound c).wired ((sound c).opened (by simp [active])))
  have trace : next.trace = w.trace ++ pieces.map (.wrote c connection) := by
    rw [isNext]
    simp only [World.sent, hasConnection, flatMap_wroteOn]
  have linked := books.linked c r active
  have request : ∀ d, (next.clients d).request = (w.clients d).request := by
    intro d
    by_cases here : d = c <;> simp [isNext, World.sent, here]
  have ofClient : ∀ d, d ≠ c → next.clients d = w.clients d := by
    intro d other
    simp [isNext, World.sent, other]
  have ofRequest : ∀ s, s ≠ r → next.requests s = w.requests s := by
    intro s other
    simp [isNext, World.sent, other]
  have here : (next.clients c).formField = field := by
    simp [isNext, World.sent]
  have streamingHere : (next.requests r).streaming = streaming := by
    simp [isNext, World.sent]
  have completedHere : (next.requests r).transferCompleted = completed := by
    simp [isNext, World.sent]
  have link : ∀ s, (next.requests s).client = (w.requests s).client := by
    intro s
    by_cases same : s = r <;> simp [isNext, World.sent, same]
  have sentHere :
      World.sentOf r next.trace = some (fields, before ++ pieces) := by
    rw [trace, sentOf_pieces c connection w.trace behind, isSent]
    rfl
  have sentOther :
      ∀ s, s ≠ r → World.sentOf s next.trace = World.sentOf s w.trace := by
    intro s other
    rw [trace]
    refine sentOf_append w.trace fun event member => ?_
    obtain ⟨piece, isPiece, rfl⟩ := List.mem_map.mp member
    simp [isPieceOf, (behind piece isPiece).1, Ne.symm other]
  have progress : Progress next c r fields (before ++ pieces) := by
    cases advances with
    | ended isOver complete _ =>
        refine .ended (here.trans isOver) fun streams => ?_
        rw [completedHere]
        exact complete streams
    | item index isItem streams incomplete sent isStreaming _ =>
        exact .item index (here.trans isItem) streams
          (completedHere.trans incomplete) sent
          (streamingHere ▸ isStreaming)
  have isOther :
      ∀ d s, d ≠ c → (w.clients d).request = some s → s ≠ r := by
    rintro d s other isActive rfl
    have also := books.linked d s isActive
    rw [linked] at also
    exact other (Option.some.inj also).symm
  refine
    { books :=
        { linked := ?_, idle := ?_, holds := ?_, running := ?_, fresh := ?_
          sent := ?_ }
      sound := ?_, hears := ?_, request := request, sent := sentHere
      others := sentOther }
  · intro d s isActive
    exact (link s).trans (books.linked d s ((request d).symm.trans isActive))
  · intro d none
    have notHere : d ≠ c := by
      rintro rfl
      rw [request, active] at none
      cases none
    rw [ofClient d notHere] at none ⊢
    exact books.idle d none
  · intro d s isActive
    rw [request] at isActive
    by_cases same : d = c
    · subst d
      rw [active] at isActive
      cases isActive
      refine ⟨fields, _, sentHere, ?_, progress⟩
      simp [form, isNext, World.sent]
    · have other := isOther d s same isActive
      obtain ⟨_, _, wasSent, wasForm, was⟩ := books.holds d s isActive
      refine ⟨_, _, (sentOther s other).trans wasSent, ?_, ?_⟩
      · rw [ofRequest s other]
        exact wasForm
      · cases was with
        | ended isOver complete =>
            refine .ended ?_ ?_
            · rw [ofClient d same]
              exact isOver
            · rw [ofRequest s other]
              exact complete
        | item index isItem streamsThere incomplete sent isStreaming =>
            refine .item index ?_ streamsThere ?_ sent ?_
            · rw [ofClient d same]
              exact isItem
            · rw [ofRequest s other]
              exact incomplete
            · rw [ofRequest s other]
              exact isStreaming
  · intro s item runs
    by_cases same : s = r
    · rw [same, streamingHere] at runs
      rw [same]
      cases advances with
      | ended _ _ stopped =>
          rw [stopped item] at runs
          cases runs
      | item index isItem _ _ _ _ stopped =>
          by_cases isIndex : item = index
          · exact ⟨c, (request c).trans active, by rw [here, isItem, isIndex]⟩
          · rw [stopped item isIndex] at runs
            cases runs
    · rw [ofRequest s same] at runs
      obtain ⟨d, isActive, isItem⟩ := books.running s item runs
      have notHere : d ≠ c := by
        rintro rfl
        rw [active] at isActive
        exact same (Option.some.inj isActive).symm
      refine ⟨d, (request d).trans isActive, ?_⟩
      rw [ofClient d notHere]
      exact isItem
  · intro s unlinked
    rw [link] at unlinked
    have other : s ≠ r := by
      rintro rfl
      rw [linked] at unlinked
      cases unlinked
    rw [ofRequest s other]
    exact books.fresh s unlinked
  · intro s other chunks sentNow streamsThere
    by_cases same : s = r
    · subst s
      rw [sentHere] at sentNow
      cases sentNow
      cases advances with
      | ended _ complete _ =>
          exact ⟨_, (complete streamsThere).2⟩
      | item _ _ _ _ sent _ _ =>
          exact ⟨_, sent⟩
    · rw [sentOther s same] at sentNow
      exact books.sent s other chunks sentNow streamsThere
  · intro d
    by_cases same : d = c
    · have was := sound c
      rw [same]
      refine ⟨?_, ?_, ?_⟩
      · simpa [isNext, World.sent] using was.wired
      · simpa [isNext, World.sent] using was.opened
      · simpa [isNext, World.sent] using was.hears
    · rw [ofClient d same]
      exact sound d
  · intro d isHeard
    unfold Hears at isHeard ⊢
    by_cases same : d = c
    · rw [same] at isHeard ⊢
      simpa [isNext, World.sent] using isHeard
    · rw [ofClient d same]
      exact isHeard

end Streamers

end UniEventHttp.ClientSide.World
