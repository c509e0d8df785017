import UniEventHttp.ClientActs
import UniEventHttp.ClientKeys

namespace UniEventHttp.ClientSide.World

/-!
# Active clients keep their loop alive

A client is weak while it rests, and `Client::request` makes it strong again.
`finish_request` and a redirect through the pool make a client weak on different
sides of `putback`, which may have given the client its next request.
-/

/-! ## The property -/

/-- A client with a request has last called `weak(false)`. -/
def Awake (w : World) : Prop :=
  ∀ c, (w.clients c).request.isSome → (w.clients c).tcp.weak = false

/-! ## The invariant of the code -/

/-- Clients that have a request are strong, or as weak as they were with one. -/
def Firm (w next : World) : Prop :=
  ∀ c,
    (next.clients c).request.isSome →
    (next.clients c).tcp.weak = false ∨
      (w.clients c).request.isSome ∧
        (next.clients c).tcp.weak = (w.clients c).tcp.weak

namespace Firm

variable {w next third : World}

theorem awake (firm : Firm w next) (awake : w.Awake) : next.Awake := by
  intro c active
  rcases firm c active with strong | ⟨was, same⟩
  · exact strong
  · rw [same]
    exact awake c was

theorem congr (clients : next.clients = w.clients) : Firm w next := by
  intro c active
  rw [clients] at active ⊢
  exact Or.inr ⟨active, rfl⟩

theorem refl (w : World) : Firm w w :=
  congr rfl

theorem trans (one : Firm w next) (two : Firm next third) : Firm w third := by
  intro c active
  rcases two c active with strong | ⟨was, same⟩
  · exact Or.inl strong
  · rw [same]
    exact one c was

/-- One client changes, and it is idle, strong, or as weak as it was. -/
theorem setClient
    (w : World)
    (c : Nat)
    (client : Client)
    (keeps :
      client.request = none ∨
        client.tcp.weak = false ∨
        client.request = (w.clients c).request ∧
          client.tcp.weak = (w.clients c).tcp.weak) :
    Firm w (w.setClient c client) := by
  intro d active
  by_cases same : d = c
  · subst same
    simp only [World.setClient, Function.update_self] at active ⊢
    rcases keeps with idle | strong | ⟨request, weak⟩
    · rw [idle] at active
      cases active
    · exact Or.inl strong
    · rw [request] at active
      exact Or.inr ⟨active, weak⟩
  · simp only [World.setClient, ne_eq, same, not_false_eq_true,
      Function.update_of_ne] at active ⊢
    exact Or.inr ⟨active, trivial⟩

theorem setTcp
    (w : World)
    (c : Nat)
    (tcp : Tcp)
    (keeps :
      (w.clients c).request = none ∨ tcp.weak = (w.clients c).tcp.weak) :
    Firm w (w.setTcp c tcp) :=
  setClient w c _ (keeps.imp id fun same => Or.inr ⟨rfl, same⟩)

theorem reset (w : World) (c : Nat) : Firm w (w.reset c) :=
  setTcp w c _ (Or.inr rfl)

theorem write (w : World) (c : Nat) (piece : Piece) : Firm w (w.write c piece) := by
  have queued :
      Firm w
        (w.setTcp c
          { (w.clients c).tcp with
            writeQueue := (w.clients c).tcp.writeQueue + 1 }) :=
    setTcp w c _ (Or.inr rfl)
  unfold World.write
  dsimp only
  split
  · exact queued
  · exact queued.trans (congr rfl)

theorem of_sends
    {c r : Nat}
    (sends : Sends w c r next) :
    Firm w next := by
  obtain ⟨field, queue, streaming, completed, pieces, rfl, _⟩ := sends
  intro d active
  by_cases same : d = c
  · subst same
    simp only [sent, Function.update_self] at active ⊢
    exact Or.inr ⟨active, trivial⟩
  · simp only [sent, ne_eq, same, not_false_eq_true, Function.update_of_ne]
      at active ⊢
    exact Or.inr ⟨active, trivial⟩

theorem of_started
    {c r : Nat}
    (started : Started w c r next) :
    Firm w next := by
  intro d active
  by_cases same : d = c
  · subst same
    obtain ⟨tcp, _, _, _, client, _⟩ := started.connects
    rw [client]
    exact Or.inl rfl
  · rw [started.clients d same] at active ⊢
    exact Or.inr ⟨active, rfl⟩

end Firm

/-! ## Starting and ending -/

theorem clientRequest_firm (w : World) (c r : Nat) :
    (w.clientRequest c r).Post (Firm w) (Firm w) (fun _ => True) := by
  have post := clientRequest_post w c r
  cases executed : w.clientRequest c r with
  | fault reason =>
      trivial
  | ok next =>
      rw [executed] at post
      exact Firm.of_started post
  | raise next =>
      rw [executed] at post
      cases active : (w.clients c).request with
      | some s =>
          unfold clientRequest at executed
          rw [if_pos (by simp [active])] at executed
          cases executed
          exact Firm.congr rfl
      | none =>
          intro d isActive
          by_cases same : d = c
          · subst same
            obtain ⟨tcp, client⟩ := post.client
            rw [client, active] at isActive
            cases isActive
          · rw [post.clients d same] at isActive ⊢
            exact Or.inr ⟨isActive, rfl⟩

theorem putback_firm (w : World) (p c : Nat) :
    (w.putback p c).Post (Firm w) (Firm w) (fun _ => True) := by
  unfold putback
  dsimp only
  split
  · trivial
  · split
    · exact (clientRequest_firm _ c _).imp
        (fun _ firm => (Firm.congr rfl).trans firm)
        (fun _ firm => (Firm.congr rfl).trans firm) (fun _ _ => trivial)
    · split
      · exact Firm.congr rfl
      · trivial

theorem Firm.newClient (w : World) (loop : Nat) (pool : Option Nat) :
    Firm w (w.newClient loop pool) :=
  Firm.trans (Firm.setClient w w.nextClient _ (Or.inl rfl)) (Firm.congr rfl)

theorem poolStart_firm
    (w : World)
    (p r : Nat)
    (key : NetLoc)
    (entry : NetLocList) :
    (w.poolStart p r key entry).Post (Firm w) (Firm w) (fun _ => True) := by
  have made := Firm.newClient w (w.pools p).loop (some p)
  exact (clientRequest_firm _ _ r).imp
    (fun _ firm => (made.trans (Firm.congr rfl)).trans firm)
    (fun _ firm => (made.trans (Firm.congr rfl)).trans firm)
    (fun _ _ => trivial)

theorem poolRequest_firm (w : World) (p r : Nat) :
    (w.poolRequest p r).Post (Firm w) (Firm w) (fun _ => True) := by
  unfold poolRequest
  split
  · exact Firm.congr rfl
  · dsimp only
    have owned :
        Firm w (w.setRequest r { w.requests r with pool := some p }) :=
      Firm.congr rfl
    split
    · exact (poolStart_firm _ p r _ _).imp (fun _ firm => owned.trans firm)
        (fun _ firm => owned.trans firm) (fun _ _ => trivial)
    · split
      · exact (clientRequest_firm _ _ r).imp
          (fun _ firm => (Firm.congr rfl).trans firm)
          (fun _ firm => (Firm.congr rfl).trans firm) (fun _ _ => trivial)
      · split
        · exact (poolStart_firm _ p r _ _).imp
            (fun _ firm => owned.trans firm)
            (fun _ firm => owned.trans firm) (fun _ _ => trivial)
        · exact Firm.congr rfl

theorem stopForm_firm (w : World) (c r : Nat) :
    (w.stopForm c r).Post (Firm w) (Firm w) (fun _ => True) := by
  have stopped :
      ∀ middle : World,
        Firm middle
          (middle.setClient c { middle.clients c with formField := -1 }) :=
    fun middle => Firm.setClient middle c _ (Or.inr (Or.inr ⟨rfl, rfl⟩))
  unfold stopForm
  dsimp only
  split
  · exact Firm.refl w
  · split
    · trivial
    · split
      · trivial
      · exact (Firm.congr rfl).trans (stopped _)
    · exact stopped w

/-- A client without a request becomes weak and goes back to its pool. -/
theorem releaseClient_firm
    {w : World}
    {c : Nat}
    (r : Nat)
    (response : Option Response)
    (error : Option ErrorCode)
    (idle : (w.clients c).request = none) :
    (w.releaseClient c r response error).Post (Firm w) (Firm w)
      (fun _ => True) := by
  obtain ⟨drops, released⟩ := releaseClient_cases w c r response error
  rw [released]
  generalize shape :
    (if drops = true then w.reset c else w.weak c true) = kept
  have either :
      ∀ drops : Bool,
        Firm w (if drops = true then w.reset c else w.weak c true) := by
    intro drops
    cases drops
    · exact Firm.setTcp w c _ (Or.inl idle)
    · exact Firm.reset w c
  have keptFirm : Firm w kept := shape ▸ either _
  refine Straight.Post.andThen
    ((stopForm_firm kept c r).imp (fun _ => id)
      (fun _ firm => keptFirm.trans firm) (fun _ _ => trivial)) ?_
  intro stopped firm
  have rests : Firm w (stopped.rested c) :=
    (keptFirm.trans firm).trans
      (Firm.setClient stopped c _ (Or.inr (Or.inr ⟨rfl, rfl⟩)))
  split
  · exact rests
  · exact (putback_firm _ _ c).imp (fun _ firm => rests.trans firm)
      (fun _ firm => rests.trans firm) (fun _ _ => trivial)

theorem Firm.detached (w : World) (c : Nat) : Firm w (w.detached c) :=
  Firm.setClient w c _ (Or.inl rfl)

theorem finishRequest_firm (w : World) (c : Nat) (error : Option ErrorCode) :
    (w.finishRequest c error).Holds (Firm w) (fun _ => True) := by
  unfold finishRequest
  dsimp only
  split
  · trivial
  · rename_i r _
    split
    · trivial
    · have left := Firm.detached w c
      have idle : ((w.detached c).clients c).request = none := by
        simp [World.detached, World.setClient]
      refine Straight.Post.before
        ((releaseClient_firm r _ _ idle).imp (fun _ => id)
          (fun _ firm => left.trans firm) (fun _ _ => trivial)) ?_
      intro released firm
      exact (left.trans firm).trans (Firm.congr rfl)

theorem Firm.holds
    {w middle : World}
    {step : Step}
    (firm : Firm w middle)
    (holds : step.Holds (Firm middle) (fun _ => True)) :
    step.Holds (Firm w) (fun _ => True) := by
  cases step with
  | next next frames | raise next =>
      exact firm.trans holds
  | fault reason =>
      trivial

theorem cancel_firm (w : World) (c : Nat) (error : Option ErrorCode) :
    (w.cancel c error).Holds (Firm w) (fun _ => True) := by
  unfold cancel
  dsimp only
  split
  · exact Firm.refl w
  · refine Firm.holds ?_ (finishRequest_firm _ c error)
    exact Firm.setClient w c _ (Or.inr (Or.inr ⟨rfl, rfl⟩))

theorem cancelRequest_firm
    (w : World)
    (p r : Nat)
    (error : Option ErrorCode) :
    (w.cancelRequest p r error).Holds (Firm w) (fun _ => True) := by
  unfold cancelRequest
  dsimp only
  split
  · trivial
  · split
    · trivial
    · exact Firm.congr rfl

/-! ## Redirects -/

theorem Firm.emit (w : World) (event : Event) : Firm w (w.emit event) :=
  congr rfl

theorem Firm.setRequest (w : World) (r : Nat) (request : Request) :
    Firm w (w.setRequest r request) :=
  congr rfl

theorem analyzeRequest_firm (w : World) (c : Nat) :
    (w.analyzeRequest c).Holds (Firm w) (fun _ => True) := by
  unfold analyzeRequest
  dsimp only
  split
  · trivial
  · trivial
  · split
    · exact Firm.refl w
    · split
      · split
        · exact cancel_firm w c _
        · split
          · exact Firm.holds (Firm.setRequest w _ _) (cancel_firm _ c _)
          · split
            · exact Firm.holds (Firm.setRequest w _ _) (cancel_firm _ c _)
            · change Firm w (World.setClient _ c _)
              exact Firm.trans (Firm.congr rfl)
                (Firm.setClient _ c _ (Or.inr (Or.inr ⟨rfl, rfl⟩)))
      · exact finishRequest_firm w c none

/--
A redirected request leaves for another client while one waits for this client,
which is then made weak after it has been given that request.
-/
def Hurries (w : World) (c : Nat) : Prop :=
  (w.clients c).redirectCanceled = false ∧
    ∃ p r,
      (w.clients c).pool = some p ∧
        (w.clients c).request = some r ∧
        w.Elsewhere c r ∧
        ∃ entry ∈ (w.pools p).clients (w.clients c).netloc,
          entry.queue ≠ []

theorem hopping_firm (w : World) (c r : Nat) (response : Response) :
    Firm w (w.hopping c r response) := by
  unfold hopping
  dsimp only
  split
  · exact (Firm.detached w c).trans (Firm.congr rfl)
  · refine (Firm.detached w c).trans (Firm.trans ?_ (Firm.setRequest _ _ _))
    exact (Firm.setRequest _ _ _).trans (Firm.reset _ c)

/-- A client that hopping leaves behind. -/
theorem hopping_client (w : World) (c r : Nat) (response : Response) :
    (w.hopping c r response).pools = w.pools ∧
      ((w.hopping c r response).clients c).netloc = (w.clients c).netloc ∧
      ((w.hopping c r response).clients c).request = none := by
  unfold hopping
  dsimp only
  split
  · simp [World.setRequest, World.detached, World.setClient]
  · simp [World.setRequest, World.detached, World.setClient, World.reset,
      World.setTcp]

theorem followRedirect_firm
    {w : World}
    {c r : Nat}
    (response : Response)
    (waitless :
      ∀ p,
        (w.clients c).pool = some p →
        w.Elsewhere c r →
        ∀ entry ∈ (w.pools p).clients (w.clients c).netloc,
          entry.queue = []) :
    (w.followRedirect c r response).Post (Firm w) (Firm w)
      (fun _ => True) := by
  have hops := hopping_firm w c r response
  have self :
      ((w.hopping c r response).clientRequest c r).Post (Firm w) (Firm w)
        (fun _ => True) :=
    (clientRequest_firm _ c r).imp (fun _ firm => hops.trans firm)
      (fun _ firm => hops.trans firm) (fun _ _ => trivial)
  unfold followRedirect
  dsimp only
  split
  · exact self
  · rename_i p inPool
    split
    · rename_i elsewhere
      obtain ⟨pools, netloc, idle⟩ := hopping_client w c r response
      have rests :
          Firm w ((w.hopping c r response).rested c) :=
        hops.trans (Firm.setClient _ c _ (Or.inr (Or.inr ⟨rfl, rfl⟩)))
      refine Straight.Post.andThen
        (((putback_post _ p c).and (putback_firm _ p c)).imp
          (fun _ => id) (fun _ both => rests.trans both.2)
          (fun _ _ => trivial)) ?_
      rintro released ⟨putsBack, firm⟩
      have stillIdle : (released.clients c).request = none := by
        cases putsBack with
        | starts present queue _ =>
            simp only [World.rested, World.setClient, Function.update_self,
              netloc, pools] at present
            rw [waitless p inPool elsewhere _ present] at queue
            cases queue
        | frees _ _ _ =>
            simp [World.setEntry, World.rested, World.setClient, idle]
      have weakens := Firm.setTcp released c
        { (released.clients c).tcp with weak := true } (Or.inl stillIdle)
      have all := (rests.trans firm).trans weakens
      exact (poolRequest_firm _ p r).imp (fun _ firm => all.trans firm)
        (fun _ firm => all.trans firm) (fun _ _ => trivial)
    · exact self

theorem redirected_firm
    {w : World}
    {c : Nat}
    (calm : ¬ w.Hurries c) :
    (w.redirected c).Holds (Firm w) (fun _ => True) := by
  unfold redirected
  dsimp only
  split
  · exact Firm.setClient w c _ (Or.inr (Or.inr ⟨rfl, rfl⟩))
  · rename_i notCanceled
    split
    · trivial
    · trivial
    · rename_i r response active _
      have left :
          Firm w (w.setClient c { w.clients c with inRedirect := false }) :=
        Firm.setClient w c _ (Or.inr (Or.inr ⟨rfl, rfl⟩))
      have goes :
          ∀ next : World,
            Firm w next →
            next.config = w.config →
            next.pools = w.pools →
            next.clients c = { w.clients c with inRedirect := false } →
            next.netloc r = w.netloc r →
            ((next.followRedirect c r response).before fun w =>
              .next w []).Holds (Firm w) (fun _ => True) := by
        intro next firm config pools client netloc
        refine Straight.Post.before
          ((followRedirect_firm response ?_).imp
            (fun _ follows => firm.trans follows)
            (fun _ follows => firm.trans follows) (fun _ => id)) ?_
        · intro p inPool elsewhere entry present
          by_contra waits
          rw [client] at inPool present
          rw [pools] at present
          refine calm ⟨by simpa using notCanceled, p, r, inPool, active, ?_,
            entry, present, waits⟩
          unfold Elsewhere at elsewhere ⊢
          rw [client, netloc] at elsewhere
          exact elsewhere
        · exact fun after firm => firm
      have client :
          (w.setClient c { w.clients c with inRedirect := false }).clients c =
            { w.clients c with inRedirect := false } := by
        simp [World.setClient]
      split
      · refine goes _ (left.trans (Firm.setRequest _ r _)) rfl rfl client ?_
        simp [World.netloc, World.setRequest, World.setClient,
          WorldConfig.netloc]
      · exact goes _ left rfl rfl client rfl

theorem redirectCatch_firm (w : World) (c : Nat) :
    (w.redirectCatch c).Holds (Firm w) (fun _ => True) := by
  refine holds_andFrames (Firm.holds ?_ (cancel_firm _ c _))
  exact Firm.setClient w c _ (Or.inr (Or.inr ⟨rfl, rfl⟩))

/-! ## Receiving -/

theorem receivePart_firm (w : World) (c : Nat) (response : Response) :
    (w.receivePart c response).Holds (Firm w) (fun _ => True) := by
  unfold receivePart
  split
  · exact Firm.refl w
  · split
    · trivial
    · split <;> exact Firm.refl w

theorem parseShift_firm
    (w : World)
    (c buffer context : Nat)
    (result : Parsed) :
    Firm w (w.parseShift c buffer context result) := by
  refine Firm.trans ?_ (Firm.emit _ _)
  exact Firm.setClient w c _ (Or.inr (Or.inr ⟨rfl, rfl⟩))

theorem onReadLoop_firm (w : World) (c buffer : Nat) (buf : List Parsed) :
    (w.onReadLoop c buffer buf).Holds (Firm w) (fun _ => True) := by
  cases buf with
  | nil =>
      exact Firm.refl w
  | cons result rest =>
      simp only [onReadLoop]
      split
      · exact Firm.reset w c
      · rename_i context _
        have parsed := parseShift_firm w c buffer context result
        cases result with
        | error error _ =>
            exact parsed.holds (cancel_firm _ c _)
        | headers =>
            exact parsed
        | body _ =>
            exact parsed.holds (receivePart_firm _ c _)
        | done _ =>
            exact holds_andFrames (parsed.holds (analyzeRequest_firm _ c))

theorem onEof_firm
    (w : World)
    (c : Nat)
    (error : Option ErrorCode)
    (response : Response) :
    (w.onEof c error response).Holds (Firm w) (fun _ => True) := by
  unfold onEof
  dsimp only
  split
  · exact Firm.reset w c
  · trivial
  · have ended :=
      Firm.setClient w c
        { w.clients c with
          response := some { response with isDone := true }, parsing := none }
        (Or.inr (Or.inr ⟨rfl, rfl⟩))
    split
    · exact ended.holds (cancel_firm _ c _)
    · exact ended.holds (analyzeRequest_firm _ c)

theorem formFileComplete_firm
    (w : World)
    (c : Nat)
    (error : Option ErrorCode) :
    (w.formFileComplete c error).Holds (Firm w) (fun _ => True) := by
  unfold formFileComplete
  split
  · exact finishRequest_firm w c _
  · have counted :=
      Firm.setClient w c
        { w.clients c with formField := (w.clients c).formField + 1 }
        (Or.inr (Or.inr ⟨rfl, rfl⟩))
    dsimp only
    generalize w.setClient c
      { w.clients c with formField := (w.clients c).formField + 1 } = next
      at counted
    cases active : (next.clients c).request with
    | none =>
        simp only [sendForm, active]
        trivial
    | some r =>
        refine Straight.Post.before
          ((sendForm_post next c r active).imp
            (fun _ sends => counted.trans (Firm.of_sends sends))
            (fun _ => False.elim) (fun _ _ => trivial)) ?_
        exact fun after firm => firm

/-! ## Runs -/

/-- No redirected request hurries away from a client that another one waits for. -/
def KeepsAwake (config : Config) (label : Label) : Prop :=
  ∀ c rest,
    label = .tick →
    config.stack = .redirected c :: rest →
    ¬ config.state.Hurries c

theorem code_firm
    {w : World}
    {frame : Frame}
    (calm : ∀ c, frame = .redirected c → ¬ w.Hurries c) :
    (code frame w).Holds (Firm w) (fun _ => True) := by
  cases frame with
  | callback callback =>
      exact Firm.refl w
  | fire callback =>
      exact Firm.emit w _
  | agentResponse a r response error =>
      change Firm w (w.agentResponse a r response error)
      unfold agentResponse
      split
      · exact Firm.refl w
      · exact Firm.congr rfl
  | agentRedirect a contextUri topLevel c context =>
      obtain ⟨reason, _, faults⟩ | ⟨response, r, _, _, acts⟩ :=
        code_agentRedirect w a contextUri topLevel c context
      · rw [faults]
        trivial
      · rw [acts]
        exact Firm.congr rfl
  | onRead c buffer buf =>
      exact onReadLoop_firm w c buffer buf
  | continued c =>
      exact Firm.setClient w c _ (Or.inr (Or.inr ⟨rfl, rfl⟩))
  | redirected c =>
      exact redirected_firm (calm c rfl)
  | redirectCatch c =>
      exact redirectCatch_firm w c
  | rethrow =>
      exact Firm.refl w
  | cancelReturn p key ticket generation =>
      change (w.cancelReturn p key ticket generation).Holds _ _
      unfold cancelReturn
      split
      · trivial
      · dsimp only
        split
        · exact Firm.congr rfl
        · trivial

theorem requestSend_firm
    {w : World}
    (r : Nat)
    {send : Nat → Step}
    (sends : ∀ c, (send c).Holds (Firm w) (fun _ => True)) :
    (w.requestSend r send).Holds (Firm w) (fun _ => True) := by
  unfold requestSend
  dsimp only
  split
  · exact Firm.emit w _
  · split
    · exact Firm.emit w _
    · split
      · exact sends _
      · trivial

theorem onTimer_firm (w : World) (r : Nat) :
    (w.onTimer r).Holds (Firm w) (fun _ => True) := by
  unfold onTimer
  dsimp only
  split
  · exact cancel_firm w _ _
  · exact cancelRequest_firm w _ r _
  · exact Firm.refl w

theorem accepted_firm
    {w : World}
    {straight : Straight}
    (pool : Option Nat)
    (loop r : Nat)
    (post : straight.Post (Firm w) (Firm w) (fun _ => True)) :
    (straight.before (acceptedOn pool loop r)).Holds (Firm w)
      (fun _ => True) :=
  Straight.Post.before post fun _ firm => firm.trans (Firm.emit _ _)

theorem accept_firm
    {w : World}
    {input : Input}
    {top : Option Frame}
    {outcome : Step}
    (accepted : accept input top w = some outcome) :
    outcome.Holds (Firm w) (fun _ => True) := by
  cases input with
  | edit r fields =>
      simp only [accept] at accepted
      split at accepted <;> cases accepted
      exact Firm.setRequest w r _
  | listen r =>
      cases top <;> simp only [accept, reduceCtorEq] at accepted
      cases accepted
      exact Firm.setRequest w r _
  | newClient loop =>
      cases accepted
      exact Firm.newClient w loop none
  | clientRequest c r =>
      simp only [accept] at accepted
      split at accepted <;> cases accepted
      exact accepted_firm none _ r (clientRequest_firm w c r)
  | poolRequest p r =>
      cases accepted
      exact accepted_firm (some p) _ r (poolRequest_firm w p r)
  | agentRequest a r contextUri topLevel =>
      cases accepted
      refine accepted_firm _ _ r ?_
      unfold agentRequest
      dsimp only
      split
      · trivial
      · exact (poolRequest_firm _ _ r).imp
          (fun _ firm => (Firm.congr rfl).trans firm)
          (fun _ firm => (Firm.congr rfl).trans firm) (fun _ _ => trivial)
  | cancel r error =>
      cases accepted
      unfold requestCancel
      dsimp only
      split
      · exact cancel_firm w _ error
      · exact cancelRequest_firm w _ r error
      · exact Firm.refl w
  | clientCancel c error =>
      cases accepted
      exact cancel_firm w c error
  | sendChunk r data =>
      cases accepted
      refine requestSend_firm r fun c => ?_
      split
      · exact Firm.refl w
      · exact Firm.write w c _
  | sendFinalChunk r data =>
      cases accepted
      refine requestSend_firm r fun c => ?_
      exact (Firm.setRequest w r _).trans (Firm.write _ c _)
  | maxConnections p value =>
      cases accepted
      exact Firm.congr rfl
  | advance loop milliseconds =>
      cases top <;> simp only [accept, reduceCtorEq] at accepted
      cases accepted
      exact Firm.congr rfl
  | onConnect c error =>
      cases top <;> simp only [accept, reduceCtorEq] at accepted
      split at accepted
      · cases error with
        | none =>
            cases accepted
            exact Firm.setTcp w c _ (Or.inr rfl)
        | some error =>
            cases accepted
            refine Firm.holds ?_ (cancel_firm _ c _)
            exact Firm.setTcp w c _ (Or.inr rfl)
      · cases accepted
  | onWrite c error =>
      cases top <;> simp only [accept, reduceCtorEq] at accepted
      split at accepted
      · cases error with
        | none =>
            cases accepted
            exact Firm.setTcp w c _ (Or.inr rfl)
        | some error =>
            cases accepted
            refine Firm.holds ?_ (cancel_firm _ c _)
            exact Firm.setTcp w c _ (Or.inr rfl)
      · cases accepted
  | onRead c buf =>
      cases top <;> simp only [accept, reduceCtorEq] at accepted
      split at accepted <;> cases accepted
      exact Firm.congr rfl
  | onReadError c error =>
      cases top <;> simp only [accept, reduceCtorEq] at accepted
      split at accepted <;> cases accepted
      exact cancel_firm w c _
  | onEof c error response =>
      cases top <;> simp only [accept, reduceCtorEq] at accepted
      split at accepted <;> cases accepted
      refine Firm.holds ?_ (onEof_firm _ c error response)
      refine Firm.trans ?_ (Firm.emit _ _)
      exact Firm.setTcp w c _ (Or.inr rfl)
  | onTimer r =>
      cases top <;> simp only [accept, reduceCtorEq] at accepted
      split at accepted
      · cases accepted
      · split at accepted
        · cases accepted
        · split at accepted <;> cases accepted
          unfold fireTimer
          dsimp only
          split
          · exact Firm.holds (Firm.setRequest w r _) (onTimer_firm _ r)
          · exact Firm.setRequest w r _
  | streamData r item data =>
      cases top <;> simp only [accept, reduceCtorEq] at accepted
      split at accepted <;> cases accepted
      exact Firm.write w _ _
  | streamFinish r item error =>
      cases top <;> simp only [accept, reduceCtorEq] at accepted
      split at accepted <;> cases accepted
      exact Firm.holds (Firm.setRequest w r _) (formFileComplete_firm _ _ error)
  | checkInactivity p =>
      cases top <;> simp only [accept, reduceCtorEq] at accepted
      split at accepted <;> cases accepted
      exact Firm.congr rfl

theorem holds_awake
    {w : World}
    {step : Step}
    (awake : w.Awake)
    (holds : step.Holds (Firm w) (fun _ => True)) :
    step.Holds Awake (fun _ => True) := by
  cases step with
  | next next frames | raise next =>
      exact Firm.awake holds awake
  | fault reason =>
      trivial

theorem maintains_awake :
    machine.Maintains KeepsAwake Awake (fun _ => True) where
  tick frame rest w _ permitted awake :=
    holds_awake awake
      (code_firm fun c isRedirected => permitted c rest rfl (by rw [isRedirected]))
  input _ _ _ _ _ _ awake accepted := holds_awake awake (accept_firm accepted)

/--
In every run in which no redirected request leaves a client that another one
waits for, every client with a request keeps its loop alive.
-/
theorem awake_of_keepsAwake
    (w : World)
    (labels : List Label)
    (final : Config)
    (fresh : Fresh w)
    (keeps : machine.Guarded KeepsAwake (start w) labels)
    (ran : run? w labels = some final) :
    final.state.Awake := by
  refine (maintains_awake.run ?_ rfl keeps ran).1
  intro c active
  simp [start, fresh.clients] at active

/-- A request is redirected to another host, and none waits for its client. -/
def redirectedAlone : List Label :=
  [.input (.edit 0 { uri := some { scheme := "http", host := "here" } }),
    .input (.poolRequest 0 0),
    .input (.onConnect 0 none),
    .input (.onRead 0
      [.done
        { code := 302
          location := some { scheme := "http", host := "there" } }]),
    .tick, .tick, .ret, .tick, .tick]

theorem awake_redirectedAlone :
    ∃ final,
      run? (initial {}) redirectedAlone = some final ∧ final.state.Awake := by
  have ran : run? (initial {}) redirectedAlone = some _ := rfl
  refine ⟨_, ran, awake_of_keepsAwake _ _ _ (fresh_initial {}) ?_ ran⟩
  have plain :
      ∀ {config : Config} {label : Label},
        label ≠ .tick → KeepsAwake config label :=
    fun noTick c rest isTick => (noTick isTick).elim
  have other :
      ∀ {config : Config} {frame : Frame} {rest : List Frame},
        config.stack = frame :: rest →
        (∀ c, frame ≠ .redirected c) →
        KeepsAwake config .tick := by
    intro config frame rest top different c below _ isTop
    rw [top] at isTop
    exact (different c (List.cons.inj isTop).1).elim
  refine .cons (plain (by simp)) rfl (.cons (plain (by simp)) rfl
    (.cons (plain (by simp)) rfl (.cons (plain (by simp)) rfl
      (.cons (other rfl (by simp)) rfl (.cons (other rfl (by simp)) rfl
        (.cons (plain (by simp)) rfl (.cons ?_ rfl
          (.cons (other rfl (by simp)) rfl trivial))))))))
  rintro c rest _ isTop
  cases isTop
  rintro ⟨_, p, r, inPool, _, _, entry, present, waits⟩
  cases inPool
  cases present
  exact waits rfl

/-- A request is redirected to another host while one waits for its client. -/
def redirectedBefore : List Label :=
  [.input (.maxConnections 0 1),
    .input (.edit 0 { uri := some { scheme := "http", host := "here" } }),
    .input (.edit 1 { uri := some { scheme := "http", host := "here" } }),
    .input (.poolRequest 0 0),
    .input (.poolRequest 0 1),
    .input (.onConnect 0 none),
    .input (.onRead 0
      [.done
        { code := 302
          location := some { scheme := "http", host := "there" } }]),
    .tick, .tick, .ret, .tick, .tick]

/-- The client starts the request that waited, and is made weak afterwards. -/
theorem redirectedBefore_not_awake :
    ∃ final,
      run? (initial {}) redirectedBefore = some final ∧
        final.stack = [] ∧
        (final.state.clients 0).request = some 1 ∧
        ¬ final.state.Awake := by
  refine ⟨_, rfl, rfl, rfl, ?_⟩
  intro awake
  have strong := awake 0 rfl
  cases strong

end UniEventHttp.ClientSide.World
