import UniEventHttp.Client

namespace UniEventHttp.ClientSide

/-!
# What the code of the clients does

One lemma for each function that starts, queues or ends a request: what it needs,
what it changes and what it leaves alone.  Code that calls no application code
has a postcondition for its normal end, one for an exception and one for a fault.
-/

namespace Straight

/-- The postconditions of a piece of code. -/
def Post
    (straight : Straight)
    (ok raise : World → Prop)
    (fault : Fault → Prop) : Prop :=
  match straight with
  | .ok w => ok w
  | .raise w => raise w
  | .fault reason => fault reason

variable {straight : Straight}
variable {ok raise : World → Prop} {fault : Fault → Prop}

/-- The rule of consequence. -/
theorem Post.imp
    {ok' raise' : World → Prop}
    {fault' : Fault → Prop}
    (post : straight.Post ok raise fault)
    (okImp : ∀ w, ok w → ok' w)
    (raiseImp : ∀ w, raise w → raise' w)
    (faultImp : ∀ reason, fault reason → fault' reason) :
    straight.Post ok' raise' fault' := by
  cases straight with
  | ok w =>
      exact okImp w post
  | raise w =>
      exact raiseImp w post
  | fault reason =>
      exact faultImp reason post

/-- The rule of conjunction. -/
theorem Post.and
    {ok' raise' : World → Prop}
    {fault' : Fault → Prop}
    (one : straight.Post ok raise fault)
    (two : straight.Post ok' raise' fault') :
    straight.Post (fun w => ok w ∧ ok' w) (fun w => raise w ∧ raise' w)
      (fun reason => fault reason ∧ fault' reason) := by
  cases straight <;> exact ⟨one, two⟩

/-- The rule of sequence. -/
theorem Post.andThen
    {ok' : World → Prop}
    {second : World → Straight}
    (post : straight.Post ok raise fault)
    (next : ∀ w, ok w → (second w).Post ok' raise fault) :
    (straight.andThen second).Post ok' raise fault := by
  cases straight with
  | ok w =>
      exact next w post
  | raise w =>
      exact post
  | fault reason =>
      exact post

/-- Straight code before code that may call the application. -/
theorem Post.before
    {invariant : World → Prop}
    {second : World → Step}
    (post : straight.Post ok invariant fault)
    (next : ∀ w, ok w → (second w).Holds invariant fault) :
    (straight.before second).Holds invariant fault := by
  cases straight with
  | ok w =>
      exact next w post
  | raise w =>
      exact post
  | fault reason =>
      exact post

/-- The code of a sequence that ends normally ends normally in its first part. -/
theorem andThen_ok
    {second : World → Straight}
    {w : World}
    (executed : straight.andThen second = .ok w) :
    ∃ middle, straight = .ok middle ∧ second middle = .ok w := by
  cases straight with
  | ok middle =>
      exact ⟨middle, rfl, executed⟩
  | raise _ | fault _ =>
      cases executed

/-- Code that goes on to call the application has ended normally before. -/
theorem before_next
    {second : World → Step}
    {w : World}
    {frames : List Frame}
    (executed : straight.before second = .next w frames) :
    ∃ middle, straight = .ok middle ∧ second middle = .next w frames := by
  cases straight with
  | ok middle =>
      exact ⟨middle, rfl, executed⟩
  | raise _ | fault _ =>
      cases executed

/-- An exception leaves the code before the calls, or the code after it. -/
theorem before_raise
    {second : World → Step}
    {w : World}
    (executed : straight.before second = .raise w) :
    straight = .raise w ∨
      ∃ middle, straight = .ok middle ∧ second middle = .raise w := by
  cases straight with
  | ok middle =>
      exact Or.inr ⟨middle, rfl, executed⟩
  | raise _ =>
      cases executed
      exact Or.inl rfl
  | fault _ =>
      cases executed

/-- A fault happens in the code before the calls, or in the code after it. -/
theorem before_fault
    {second : World → Step}
    {reason : Fault}
    (executed : straight.before second = .fault reason) :
    straight = .fault reason ∨
      ∃ middle, straight = .ok middle ∧ second middle = .fault reason := by
  cases straight with
  | ok middle =>
      exact Or.inr ⟨middle, rfl, executed⟩
  | raise _ =>
      cases executed
  | fault _ =>
      cases executed
      exact Or.inl rfl

end Straight

/-- Frames below do not matter for what holds of the state. -/
theorem holds_andFrames
    {step : Step}
    {below : List Frame}
    {invariant : World → Prop}
    {fault : Fault → Prop}
    (holds : step.Holds invariant fault) :
    (andFrames step below).Holds invariant fault := by
  cases step <;> exact holds

theorem andFrames_next
    {step : Step}
    {below : List Frame}
    {w : World}
    {frames : List Frame}
    (executed : andFrames step below = .next w frames) :
    ∃ first, step = .next w first ∧ frames = first ++ below := by
  cases step with
  | next _ first =>
      cases executed
      exact ⟨first, rfl, rfl⟩
  | raise _ | fault _ =>
      cases executed

theorem andFrames_raise
    {step : Step}
    {below : List Frame}
    {w : World}
    (executed : andFrames step below = .raise w) :
    step = .raise w := by
  cases step with
  | raise _ =>
      cases executed
      rfl
  | next _ _ | fault _ =>
      cases executed

/-- The fields of a request that has been given its scheme. -/
def RequestFields.withScheme (fields : RequestFields) : RequestFields :=
  { fields with uri := fields.uri.map Uri.withScheme }

namespace World

/-! ## Submissions -/

/-- What was recorded of the submission of a request that has not ended. -/
def ongoing
    {α : Type}
    (record : (pool : Option Nat) → (loop time timeout : Nat) → α)
    (r : Nat)
    (trace : List Event) :
    Option α :=
  trace.foldl
    (fun pending event =>
      match event with
      | .accepted other pool loop time timeout =>
          if other = r then some (record pool loop time timeout) else pending
      | .finished other => if other = r then none else pending
      | _ => pending)
    none

/-- The observations that neither begin nor end a submission. -/
def keepsSubmissions : Event → Bool
  | .accepted _ _ _ _ _ => false
  | .finished _ => false
  | _ => true

section Ongoing

variable {α : Type}
variable (record : Option Nat → Nat → Nat → Nat → α)

theorem ongoing_append
    (r : Nat)
    (trace events : List Event)
    (keeps : ∀ event ∈ events, keepsSubmissions event = true) :
    ongoing record r (trace ++ events) = ongoing record r trace := by
  induction events generalizing trace with
  | nil =>
      simp
  | cons event rest inductionHypothesis =>
      have regrouped : trace ++ event :: rest = (trace ++ [event]) ++ rest := by
        simp
      rw [regrouped, inductionHypothesis (trace ++ [event])
        fun other member => keeps other (List.mem_cons_of_mem _ member)]
      have kept := keeps event List.mem_cons_self
      unfold ongoing
      rw [List.foldl_append]
      cases event with
      | accepted _ _ _ _ _ | finished _ =>
          cases kept
      | _ =>
          rfl

theorem ongoing_accepted
    (r other : Nat)
    (pool : Option Nat)
    (loop time timeout : Nat)
    (trace : List Event) :
    ongoing record r (trace ++ [.accepted other pool loop time timeout]) =
      if other = r then some (record pool loop time timeout)
      else ongoing record r trace := by
  unfold ongoing
  rw [List.foldl_append]
  rfl

theorem ongoing_finished
    (r other : Nat)
    (trace : List Event) :
    ongoing record r (trace ++ [.finished other]) =
      if other = r then none else ongoing record r trace := by
  unfold ongoing
  rw [List.foldl_append]
  rfl

end Ongoing

/-! ## Single updates -/

@[simp] theorem setTcp_tcp (w : World) (c : Nat) (tcp : Tcp) :
    ((w.setTcp c tcp).clients c).tcp = tcp := by
  simp [setTcp, setClient]

@[simp] theorem setTcp_setTcp (w : World) (c : Nat) (first second : Tcp) :
    (w.setTcp c first).setTcp c second = w.setTcp c second := by
  simp [setTcp, setClient]

@[simp] theorem reset_setTcp (w : World) (c : Nat) (tcp : Tcp) :
    (w.reset c).setTcp c tcp = w.setTcp c tcp := by
  simp [reset]

/-! ## Writing -/

/-- The observation of a write, if it reaches a connection. -/
def wroteOn (c : Nat) (connection : Option Nat) (piece : Piece) : List Event :=
  connection.toList.map fun connection => .wrote c connection piece

/-- A state in which a client has sent parts of a form. -/
def sent
    (w : World)
    (c r : Nat)
    (field : Int)
    (writeQueue : Nat)
    (streaming : Nat → Streaming)
    (completed : Bool)
    (pieces : List Piece) :
    World :=
  let client := w.clients c
  let request := w.requests r
  { w with
    clients := Function.update w.clients c
      { client with
        formField := field
        tcp := { client.tcp with writeQueue := writeQueue } }
    requests := Function.update w.requests r
      { request with
        streaming := streaming
        transferCompleted := completed }
    trace := w.trace ++ pieces.flatMap (wroteOn c client.tcp.connection) }

/-- The second state is the first one with pieces of a form sent. -/
def Sends (w : World) (c r : Nat) (next : World) : Prop :=
  ∃ field writeQueue streaming completed pieces,
    next = w.sent c r field writeQueue streaming completed pieces ∧
      ∀ piece ∈ pieces, piece.req = r ∧ ∀ other fields, piece ≠ .head other fields

theorem Sends.refl (w : World) (c r : Nat) : Sends w c r w := by
  refine ⟨(w.clients c).formField, (w.clients c).tcp.writeQueue,
    (w.requests r).streaming, (w.requests r).transferCompleted, [], ?_, by simp⟩
  simp [sent]

theorem Sends.trans
    {first second third : World}
    {c r : Nat}
    (one : Sends first c r second)
    (two : Sends second c r third) :
    Sends first c r third := by
  obtain ⟨_, _, _, _, early, rfl, earlyOf⟩ := one
  obtain ⟨field, queue, streaming, completed, late, rfl, lateOf⟩ := two
  refine ⟨field, queue, streaming, completed, early ++ late, ?_, ?_⟩
  · simp [sent]
  · intro piece member
    exact (List.mem_append.mp member).elim (earlyOf piece) (lateOf piece)

theorem Sends.write
    (w : World)
    (c r : Nat)
    {piece : Piece}
    (same : piece.req = r)
    (notHead : ∀ other fields, piece ≠ .head other fields) :
    Sends w c r (w.write c piece) := by
  refine ⟨(w.clients c).formField, (w.clients c).tcp.writeQueue + 1,
    (w.requests r).streaming, (w.requests r).transferCompleted, [piece],
    ?_, by simpa using ⟨same, notHead⟩⟩
  cases connection : (w.clients c).tcp.connection <;>
    simp [World.write, sent, setTcp, setClient, emit, wroteOn, connection]

theorem Sends.setFormField (w : World) (c r : Nat) (field : Int) :
    Sends w c r (w.setClient c { w.clients c with formField := field }) := by
  refine ⟨field, (w.clients c).tcp.writeQueue,
    (w.requests r).streaming, (w.requests r).transferCompleted, [], ?_, by simp⟩
  simp [sent, setClient]

theorem Sends.setStreaming
    (w : World)
    (c r : Nat)
    (streaming : Nat → Streaming) :
    Sends w c r
      (w.setRequest r { w.requests r with streaming := streaming }) := by
  refine ⟨(w.clients c).formField, (w.clients c).tcp.writeQueue,
    streaming, (w.requests r).transferCompleted, [], ?_, by simp⟩
  simp [sent, setRequest]

theorem Sends.complete (w : World) (c r : Nat) :
    Sends w c r
      (w.setRequest r { w.requests r with transferCompleted := true }) := by
  refine ⟨(w.clients c).formField, (w.clients c).tcp.writeQueue,
    (w.requests r).streaming, true, [], ?_, by simp⟩
  simp [sent, setRequest]

/-- The items of a form are sent. -/
theorem sendItems_post
    (w : World)
    (c r : Nat)
    (items : List FormItem) :
    (w.sendItems c r items).Post (Sends w c r) (fun _ => False)
      (· = .nullInput) := by
  induction items generalizing w with
  | nil =>
      exact Sends.refl w c r
  | cons item rest inductionHypothesis =>
      cases item with
      | field name content =>
          have wrote : Sends w c r (w.write c (.formField r name content)) :=
            Sends.write w c r rfl (by simp)
          exact (inductionHypothesis _).imp
            (fun _ => (wrote.trans (Sends.setFormField _ c r _)).trans)
            (fun _ => id) (fun _ => id)
      | embeddedFile name content mimeType filename =>
          have header :
              Sends w c r (w.write c (.formFile r name filename mimeType)) :=
            Sends.write w c r rfl (by simp)
          have data :
              Sends (w.write c (.formFile r name filename mimeType)) c r
                ((w.write c (.formFile r name filename mimeType)).write c
                  (.formData r content.toList)) :=
            Sends.write _ c r rfl (by simp)
          exact (inductionHypothesis _).imp
            (fun _ =>
              ((header.trans data).trans (Sends.setFormField _ c r _)).trans)
            (fun _ => id) (fun _ => id)
      | file name mimeType filename =>
          simp only [sendItems]
          split
          · rfl
          · exact (Sends.setStreaming w c r _).trans
              (Sends.write _ c r rfl (by simp))

/-- `send_form` sends the form of the client's request. -/
theorem sendForm_post
    (w : World)
    (c r : Nat)
    (active : (w.clients c).request = some r) :
    (w.sendForm c).Post (Sends w c r) (fun _ => False) (· = .nullInput) := by
  unfold sendForm
  rw [active]
  refine (sendItems_post w c r _).andThen ?_
  intro middle sends
  dsimp only
  split
  · refine sends.trans ?_
    exact ((Sends.setFormField middle c r (-1)).trans
      (Sends.write _ c r rfl (by simp))).trans (Sends.complete _ c r)
  · exact sends

/-! ## Starting a request -/

/-- What `Client::request` and the pool leave alone of everything else. -/
structure Apart (w : World) (c r : Nat) (next : World) : Prop where
  config : next.config = w.config
  pools : next.pools = w.pools
  agents : next.agents = w.agents
  now : next.now = w.now
  nextClient : next.nextClient = w.nextClient
  nextBuffer : next.nextBuffer = w.nextBuffer
  clients : ∀ other, other ≠ c → next.clients other = w.clients other
  requests : ∀ other, other ≠ r → next.requests other = w.requests other

namespace Apart

theorem refl (w : World) (c r : Nat) : Apart w c r w :=
  ⟨rfl, rfl, rfl, rfl, rfl, rfl, fun _ _ => rfl, fun _ _ => rfl⟩

theorem trans
    {first second third : World}
    {c r : Nat}
    (one : Apart first c r second)
    (two : Apart second c r third) :
    Apart first c r third where
  config := two.config.trans one.config
  pools := two.pools.trans one.pools
  agents := two.agents.trans one.agents
  now := two.now.trans one.now
  nextClient := two.nextClient.trans one.nextClient
  nextBuffer := two.nextBuffer.trans one.nextBuffer
  clients other different :=
    (two.clients other different).trans (one.clients other different)
  requests other different :=
    (two.requests other different).trans (one.requests other different)

theorem emit (w : World) (c r : Nat) (event : Event) :
    Apart w c r (w.emit event) :=
  ⟨rfl, rfl, rfl, rfl, rfl, rfl, fun _ _ => rfl, fun _ _ => rfl⟩

theorem setClient (w : World) (c r : Nat) (client : Client) :
    Apart w c r (w.setClient c client) where
  config := rfl
  pools := rfl
  agents := rfl
  now := rfl
  nextClient := rfl
  nextBuffer := rfl
  clients _ different := Function.update_of_ne different _ _
  requests _ _ := rfl

theorem setRequest (w : World) (c r : Nat) (request : Request) :
    Apart w c r (w.setRequest r request) where
  config := rfl
  pools := rfl
  agents := rfl
  now := rfl
  nextClient := rfl
  nextBuffer := rfl
  clients _ _ := rfl
  requests _ different := Function.update_of_ne different _ _

theorem of_sends
    {w next : World}
    {c r : Nat}
    (sends : Sends w c r next) :
    Apart w c r next := by
  obtain ⟨_, _, _, _, _, rfl, _⟩ := sends
  exact ⟨rfl, rfl, rfl, rfl, rfl, rfl,
    fun other different => Function.update_of_ne different _ _,
    fun other different => Function.update_of_ne different _ _⟩

end Apart

/-- The connection on which `Client::request` starts a request. -/
inductive Connects
    (w : World)
    (c : Nat)
    (fields : RequestFields) :
    Tcp → List Event → Prop where
  /-- The connection that the client has. -/
  | reuses :
      (w.clients c).tcp.status = .connected →
      (w.clients c).netloc = w.config.netloc fields →
      fields.keepAlive = true →
      Connects w c fields (w.clients c).tcp []
  /-- A new connection, with the TLS layer that the request needs. -/
  | opens (tcp : Tcp) (timeout : Nat) :
      tcp.status = .connecting →
      tcp.connection = some w.nextConnection →
      tcp.eof = false →
      tcp.tls = w.config.tlsSetup fields →
      Connects w c fields tcp
        [.opened c w.nextConnection (w.config.netloc fields) timeout tcp.tls
          tcp.socks]

/-- `Client::request` has started the request. -/
structure Started (w : World) (c r : Nat) (next : World) : Prop
    extends Apart w c r next where
  idle : (w.clients c).request = none
  unlinked : (w.requests r).client = none
  checked : (w.requests r).check = none
  client :
    next.clients c =
      { w.clients c with
        request := some r
        parsing := some r
        netloc :=
          w.config.netloc (w.requests r).toRequestFields.withScheme
        formField := (next.clients c).formField
        tcp := (next.clients c).tcp }
  request :
    next.requests r =
      { w.requests r with
        client := some c
        uri := (w.requests r).uri.map Uri.withScheme
        timer :=
          ((w.requests r).ensureTimerActive (w.clients c).loop w.now).timer
        streaming := (next.requests r).streaming
        transferCompleted := (next.requests r).transferCompleted }
  connects :
    ∃ tcp opening, ∃ pieces : List Piece,
      Connects w c (w.requests r).toRequestFields.withScheme tcp opening ∧
        next.clients c =
          { next.clients c with
            tcp :=
              { tcp with
                weak := false
                writeQueue := (next.clients c).tcp.writeQueue } } ∧
        next.nextConnection = w.nextConnection + opening.length ∧
        next.trace =
          w.trace ++ opening ++ .started c r ::
            (wroteOn c tcp.connection
                (.head r (w.requests r).toRequestFields.withScheme) ++
              pieces.flatMap (wroteOn c tcp.connection)) ∧
        ∀ piece ∈ pieces,
          piece.req = r ∧ ∀ other fields, piece ≠ .head other fields
  /-- A request without a form is sent, as far as it is known. -/
  plain :
    (w.requests r).formStreaming = false →
    (next.clients c).formField = (w.clients c).formField ∧
      (next.requests r).streaming = (w.requests r).streaming ∧
      (next.requests r).transferCompleted =
        (!(w.requests r).chunked || (w.requests r).body.length != 0 ||
          (w.requests r).transferCompleted)

/-- Starting a request neither begins nor ends a submission. -/
theorem Started.ongoing
    {α : Type}
    {w next : World}
    {c r : Nat}
    (started : Started w c r next)
    (record : Option Nat → Nat → Nat → Nat → α)
    (s : Nat) :
    World.ongoing record s next.trace = World.ongoing record s w.trace := by
  obtain ⟨tcp, opening, pieces, connects, _, _, trace, _⟩ := started.connects
  rw [trace, List.append_assoc]
  refine ongoing_append record s w.trace _ ?_
  intro event member
  simp only [wroteOn, List.mem_append, List.mem_cons, List.mem_flatMap,
    List.mem_map] at member
  rcases member with isOpening | rfl | ⟨_, _, rfl⟩ | ⟨_, _, _, _, rfl⟩
  · cases connects with
    | reuses _ _ _ =>
        cases isOpening
    | opens _ _ _ _ _ _ =>
        rw [List.mem_singleton] at isOpening
        subst isOpening
        rfl
  · rfl
  · rfl
  · rfl

theorem Started.active
    {w next : World}
    {c r : Nat}
    (started : Started w c r next) :
    (next.clients c).request = some r := by
  rw [started.client]

/-- The TLS context of the request has to be made, and it cannot be set up. -/
def LacksContext (w : World) (fields : RequestFields) : Prop :=
  w.config.verifies fields = true ∧
    w.verifyContext = false ∧
    w.config.setsVerifyPaths = false

/-- The proxy of the request is neither a SOCKS nor an HTTP one. -/
def RefusesProxy (w : World) (fields : RequestFields) : Prop :=
  ∃ proxy,
    fields.proxy = some proxy ∧
      (w.config.proxyUri proxy).scheme ≠ "socks5" ∧
      (w.config.proxyUri proxy).scheme ≠ "http"

/-- No connection can be set up for the request. -/
def RefusesSetup (w : World) (fields : RequestFields) : Prop :=
  w.LacksContext fields ∨ w.RefusesProxy fields

instance (w : World) (fields : RequestFields) :
    Decidable (w.LacksContext fields) :=
  inferInstanceAs (Decidable (_ ∧ _ ∧ _))

instance (w : World) (fields : RequestFields) :
    Decidable (w.RefusesProxy fields) :=
  inferInstanceAs (Decidable (∃ proxy, proxy ∈ fields.proxy ∧ _ ∧ _))

instance (w : World) (fields : RequestFields) :
    Decidable (w.RefusesSetup fields) :=
  inferInstanceAs (Decidable (_ ∨ _))

theorem refusesSetup_congr
    {w next : World}
    (config : next.config = w.config)
    (verifyContext : next.verifyContext = w.verifyContext)
    (fields : RequestFields) :
    next.RefusesSetup fields ↔ w.RefusesSetup fields := by
  unfold RefusesSetup LacksContext RefusesProxy
  rw [config, verifyContext]

/-- A stream keeps its connection, or it has been closed. -/
def Stays (old new : Tcp) : Prop :=
  new.status = old.status ∧ new.connection = old.connection ∨
    new.status = .closed ∧ new.connection = none

/-- `Client::request` has thrown an exception. -/
structure Refused (w : World) (c r : Nat) (next : World) : Prop
    extends Apart w c r next where
  client : ∃ tcp, next.clients c = { w.clients c with tcp := tcp }
  stream : Stays (w.clients c).tcp (next.clients c).tcp
  nextConnection : next.nextConnection = w.nextConnection
  request :
    next.requests r = w.requests r ∨
      (w.clients c).request = none ∧
        (w.requests r).client = none ∧
        (w.requests r).check = none ∧
        next.requests r =
          { w.requests r with
            client := some c
            uri := (w.requests r).uri.map Uri.withScheme } ∧
        w.RefusesSetup (w.requests r).toRequestFields.withScheme
  trace : ∃ exception, next.trace = w.trace ++ [.threw exception]

/-- `_verify_ssl_context` has an instance after the TLS layer has been set up. -/
def verified (w : World) (fields : RequestFields) : Bool :=
  w.verifyContext || w.config.verifies fields

/-- The TLS layer is set up, or the context for it is missing. -/
theorem setUpTls_post (w : World) (c : Nat) (fields : RequestFields) :
    (w.setUpTls c fields).Post
      (fun next =>
        ¬ w.LacksContext fields ∧
          next =
            { w with verifyContext := w.verified fields }.setTcp c
              { (w.clients c).tcp with tls := w.config.tlsSetup fields })
      (fun next =>
        w.LacksContext fields ∧
          ∃ exception,
            next =
              { w with
                verifyContext := w.verified fields
                trace := w.trace ++ [.threw exception] })
      (fun _ => False) := by
  unfold setUpTls verified LacksContext
  cases needed : w.config.verifies fields with
  | false =>
      exact ⟨by simp, by simp⟩
  | true =>
      cases made : w.verifyContext with
      | true =>
          have same : w = { w with verifyContext := true } := by rw [← made]
          simp only [↓reduceIte, verifySslContext, made, Straight.andThen,
            Straight.Post]
          exact ⟨by simp, by rw [Bool.true_or, ← same]⟩
      | false =>
          cases loads : w.config.setsVerifyPaths with
          | true =>
              simp only [↓reduceIte, verifySslContext, made, loads,
                Straight.andThen, Straight.Post]
              exact ⟨by simp, rfl⟩
          | false =>
              simp only [↓reduceIte, verifySslContext, made, loads]
              exact ⟨by simp, _, rfl⟩

/-- The client connects, or the proxy of the request is not supported. -/
theorem connectThrough_post
    (w : World)
    (c : Nat)
    (netloc : NetLoc)
    (fields : RequestFields) :
    (w.connectThrough c netloc fields).Post
      (fun next =>
        ¬ w.RefusesProxy fields ∧
          ∃ tcp timeout,
            tcp.status = .connecting ∧
              tcp.connection = some w.nextConnection ∧
              tcp.eof = false ∧
              tcp.tls = (w.clients c).tcp.tls ∧
              next =
                { w with
                  clients := Function.update w.clients c
                    { w.clients c with netloc := netloc, tcp := tcp }
                  nextConnection := w.nextConnection + 1
                  trace := w.trace ++
                    [.opened c w.nextConnection netloc timeout tcp.tls
                      tcp.socks] })
      (fun next =>
        w.RefusesProxy fields ∧
          ∃ exception, next = w.emit (.threw exception))
      (fun _ => False) := by
  have opened :
      ∀ (tcp : Tcp) (timeout : Nat),
        tcp.tls = (w.clients c).tcp.tls →
        ∃ tcp' timeout',
          tcp'.status = .connecting ∧
            tcp'.connection = some w.nextConnection ∧
            tcp'.eof = false ∧
            tcp'.tls = (w.clients c).tcp.tls ∧
            ((w.setTcp c tcp).setClient c
              { (w.setTcp c tcp).clients c with
                netloc := netloc }).connect c netloc timeout =
              { w with
                clients := Function.update w.clients c
                  { w.clients c with netloc := netloc, tcp := tcp' }
                nextConnection := w.nextConnection + 1
                trace := w.trace ++
                  [.opened c w.nextConnection netloc timeout' tcp'.tls
                    tcp'.socks] } := by
    intro tcp timeout tls
    refine ⟨{ tcp with
      status := .connecting, connection := some w.nextConnection,
      eof := false }, timeout, rfl, rfl, rfl, tls, ?_⟩
    simp [connect, setTcp, setClient, emit]
  have unchanged : w.setTcp c (w.clients c).tcp = w := by
    simp [setTcp, setClient]
  have direct := opened (w.clients c).tcp
    (if fields.connectTimeout = 0 then
      fields.timeout
    else
      fields.connectTimeout) rfl
  rw [unchanged] at direct
  unfold connectThrough RefusesProxy
  dsimp only
  split
  · rename_i isDirect
    exact ⟨by simp [isDirect], direct⟩
  · rename_i proxy given
    split
    · rename_i isSocks
      refine ⟨?_, opened _ _ rfl⟩
      rintro ⟨other, isOther, notSocks, _⟩
      rw [given] at isOther
      cases isOther
      exact notSocks isSocks
    · rename_i notSocks
      split
      · rename_i isHttp
        refine ⟨?_, direct⟩
        rintro ⟨other, isOther, _, notHttp⟩
        rw [given] at isOther
        cases isOther
        exact notHttp isHttp
      · rename_i notHttp
        exact ⟨⟨proxy, given, notSocks, notHttp⟩, _, rfl⟩

/-- A new connection is opened, or none can be set up. -/
theorem openConnection_post (w : World) (c r : Nat) :
    (w.openConnection c r).Post
      (fun next =>
        ¬ w.RefusesSetup (w.requests r).toRequestFields ∧
          ∃ tcp timeout,
            tcp.status = .connecting ∧
              tcp.connection = some w.nextConnection ∧
              tcp.eof = false ∧
              tcp.tls = w.config.tlsSetup (w.requests r).toRequestFields ∧
              next =
                { w with
                  clients := Function.update w.clients c
                    { w.clients c with netloc := w.netloc r, tcp := tcp }
                  verifyContext :=
                    w.verified (w.requests r).toRequestFields
                  nextConnection := w.nextConnection + 1
                  trace := w.trace ++
                    [.opened c w.nextConnection (w.netloc r) timeout tcp.tls
                      tcp.socks] })
      (fun next =>
        w.RefusesSetup (w.requests r).toRequestFields ∧
          ∃ tcp exception,
            Stays (w.clients c).tcp tcp ∧
              next =
                { w with
                  clients := Function.update w.clients c
                    { w.clients c with tcp := tcp }
                  verifyContext := w.verified (w.requests r).toRequestFields
                  trace := w.trace ++ [.threw exception] })
      (fun _ => False) := by
  unfold openConnection
  dsimp only
  generalize isFields : (w.requests r).toRequestFields = fields
  obtain ⟨bare, isBare, stays⟩ :
      ∃ tcp : Tcp,
        ((if (w.clients c).tcp.status = .connected then
            w.reset c
          else
            w).setTcp c
          { ((if (w.clients c).tcp.status = .connected then
                w.reset c
              else
                w).clients c).tcp with
            tls := none
            socks := none }) = w.setTcp c tcp ∧
          Stays (w.clients c).tcp tcp := by
    split
    · exact ⟨_, reset_setTcp w c _,
        Or.inr (by simp [reset, setTcp, setClient])⟩
    · exact ⟨_, rfl, Or.inl ⟨rfl, rfl⟩⟩
  rw [isBare]
  have setsUp := setUpTls_post (w.setTcp c bare) c fields
  cases layered : (w.setTcp c bare).setUpTls c fields with
  | fault reason =>
      rw [layered] at setsUp
      exact setsUp.elim
  | raise next =>
      rw [layered] at setsUp
      obtain ⟨lacks, exception, rfl⟩ := setsUp
      exact ⟨Or.inl lacks, bare, exception, stays, rfl⟩
  | ok next =>
      rw [layered] at setsUp
      obtain ⟨hasContext, isNext⟩ := setsUp
      rw [setTcp_tcp] at isNext
      refine (connectThrough_post next c (w.netloc r) fields).imp ?_ ?_
        (fun _ => id)
      · rintro final ⟨accepts, tcp, timeout, status, connection, eof, tls, rfl⟩
        subst isNext
        refine ⟨?_, tcp, timeout, status, connection, eof, ?_, ?_⟩
        · rintro (lacks | refuses)
          · exact hasContext lacks
          · exact accepts refuses
        · rw [tls, setTcp_tcp]
          rfl
        · simp [setTcp, setClient, verified]
      · rintro final ⟨refuses, exception, rfl⟩
        subst isNext
        exact ⟨Or.inr refuses,
          { bare with tls := w.config.tlsSetup fields }, exception, stays,
          by simp [setTcp, setClient, emit, verified]⟩

/-- A state in which the head of a request has been written. -/
def begun (w : World) (c r : Nat) : World :=
  let client := w.clients c
  let request := w.requests r
  { w with
    clients := Function.update w.clients c
      { client with
        request := some r
        parsing := some r
        tcp :=
          { client.tcp with
            weak := false
            writeQueue := client.tcp.writeQueue + 1 } }
    requests := Function.update w.requests r
      (request.ensureTimerActive client.loop w.now)
    trace := w.trace ++
      .started c r ::
        wroteOn c client.tcp.connection (.head r request.toRequestFields) }

/-- The timer is not one of the public members. -/
@[simp] theorem toRequestFields_ensureTimerActive
    (request : Request)
    (loop : Nat)
    (now : Nat → Nat) :
    (request.ensureTimerActive loop now).toRequestFields =
      request.toRequestFields := by
  unfold Request.ensureTimerActive
  split <;> rfl

/-- Only the timer changes. -/
theorem ensureTimerActive_eq
    (request : Request)
    (loop : Nat)
    (now : Nat → Nat) :
    request.ensureTimerActive loop now =
      { request with
        timer := (request.ensureTimerActive loop now).timer } := by
  unfold Request.ensureTimerActive
  split <;> rfl

/-- The head of a request is written, and then its form, if it has one. -/
theorem startRequest_eq (w : World) (c r : Nat) :
    w.startRequest c r =
      if (w.requests r).formStreaming then
        ((w.begun c r).setClient c
          { (w.begun c r).clients c with formField := 0 }).sendForm c
      else if !(w.requests r).chunked || (w.requests r).body.length != 0 then
        .ok ((w.begun c r).setRequest r
          { (w.begun c r).requests r with transferCompleted := true })
      else
        .ok (w.begun c r) := by
  have begins :
      ((((w.setRequest r
          ((w.requests r).ensureTimerActive (w.clients c).loop w.now)).weak c
            false).setClient c
          { ((w.setRequest r
              ((w.requests r).ensureTimerActive (w.clients c).loop
                w.now)).weak c false).clients c with
            request := some r
            parsing := some r }).emit (.started c r)).write c
        (.head r (w.requests r).toRequestFields) = w.begun c r := by
    cases connection : (w.clients c).tcp.connection <;>
      simp [begun, write, weak, setTcp, setClient, setRequest, emit, wroteOn,
        connection]
  have sameFields :
      ((((w.setRequest r
          ((w.requests r).ensureTimerActive (w.clients c).loop w.now)).weak c
            false).setClient c
          { ((w.setRequest r
              ((w.requests r).ensureTimerActive (w.clients c).loop
                w.now)).weak c false).clients c with
            request := some r
            parsing := some r }).emit (.started c r)).requests r =
        (w.requests r).ensureTimerActive (w.clients c).loop w.now := by
    simp [weak, setTcp, setClient, setRequest, emit]
  unfold startRequest
  simp only [sameFields, toRequestFields_ensureTimerActive, begins]

/-- The head of a request is written, and then as much of it as is known. -/
theorem startRequest_post (w : World) (c r : Nat) :
    (w.startRequest c r).Post
      (fun next =>
        Sends (w.begun c r) c r next ∧
          ((w.requests r).formStreaming = false →
            ∃ completed,
              next =
                (w.begun c r).setRequest r
                  { (w.begun c r).requests r with
                    transferCompleted := completed } ∧
                completed =
                  (!(w.requests r).chunked ||
                    (w.requests r).body.length != 0 ||
                    (w.requests r).transferCompleted)))
      (fun _ => False)
      (· = .nullInput) := by
  have sameRequest :
      (w.begun c r).requests r =
        { w.requests r with
          timer :=
            ((w.requests r).ensureTimerActive (w.clients c).loop
              w.now).timer } := by
    simp only [begun, Function.update_self]
    exact ensureTimerActive_eq _ _ _
  rw [startRequest_eq]
  split
  · rename_i streams
    have active :
        (((w.begun c r).setClient c
          { (w.begun c r).clients c with formField := 0 }).clients c).request =
            some r := by
      simp [setClient, begun]
    refine (sendForm_post _ c r active).imp ?_ (fun _ => id) (fun _ => id)
    intro next sends
    refine ⟨(Sends.setFormField _ c r 0).trans sends, ?_⟩
    intro notStreaming
    simp [notStreaming] at streams
  · split
    · rename_i known
      refine ⟨Sends.complete _ c r, fun _ => ⟨true, rfl, ?_⟩⟩
      simp only [Bool.or_eq_true] at known
      rcases known with notChunked | hasBody
      · simp [notChunked]
      · simp [hasBody]
    · rename_i unknown
      refine ⟨Sends.refl _ c r, fun _ => ⟨_, ?_, rfl⟩⟩
      have notNow :
          (!(w.requests r).chunked || (w.requests r).body.length != 0) =
            false := by
        simpa using unknown
      simp [notNow, sameRequest, setRequest]
      simp [begun, ← ensureTimerActive_eq]

/-- A state in which a client has a request and the connection for it. -/
def linked
    (w : World)
    (c r : Nat)
    (tcp : Tcp)
    (opening : List Event) :
    World :=
  let request := w.requests r
  { w with
    clients := Function.update w.clients c
      { w.clients c with
        netloc := w.config.netloc request.toRequestFields.withScheme
        tcp := tcp }
    requests := Function.update w.requests r
      { request with
        client := some c
        uri := request.uri.map Uri.withScheme }
    verifyContext :=
      w.verifyContext ||
        !opening.isEmpty && w.config.verifies request.toRequestFields.withScheme
    nextConnection := w.nextConnection + opening.length
    trace := w.trace ++ opening }

/-- A request that has its connection is started. -/
theorem started_of_linked
    {w : World}
    {c r : Nat}
    {tcp : Tcp}
    {opening : List Event}
    (idle : (w.clients c).request = none)
    (unlinked : (w.requests r).client = none)
    (checked : (w.requests r).check = none)
    (connects :
      Connects w c (w.requests r).toRequestFields.withScheme tcp opening) :
    ((w.linked c r tcp opening).startRequest c r).Post (Started w c r)
      (Refused w c r) (· = .nullInput) := by
  refine (startRequest_post _ c r).imp ?_ (fun _ => False.elim) (fun _ => id)
  rintro next ⟨sends, plain⟩
  have timer :
      ((w.linked c r tcp opening).requests r).ensureTimerActive
          ((w.linked c r tcp opening).clients c).loop
          (w.linked c r tcp opening).now =
        { w.requests r with
          client := some c
          uri := (w.requests r).uri.map Uri.withScheme
          timer :=
            ((w.requests r).ensureTimerActive (w.clients c).loop
              w.now).timer } := by
    simp only [linked, Function.update_self, Request.ensureTimerActive]
    split <;> rfl
  obtain ⟨field, queue, streaming, completed, pieces, shape, ofForm⟩ := sends
  have apart : Apart w c r next := by
    subst shape
    exact ⟨rfl, rfl, rfl, rfl, rfl, rfl,
      fun other different => by simp [sent, begun, linked, different],
      fun other different => by simp [sent, begun, linked, different]⟩
  refine
    { toApart := apart, idle := idle, unlinked := unlinked, checked := checked
      client := ?_, request := ?_, connects := ⟨tcp, opening, pieces, connects,
        ?_, ?_, ?_, ofForm⟩, plain := ?_ }
  · subst shape
    simp [sent, begun, linked]
  · subst shape
    simp only [sent, begun, Function.update_self, timer]
  · subst shape
    simp [sent, begun, linked]
  · subst shape
    simp [sent, begun, linked]
  · subst shape
    simp [sent, begun, linked, RequestFields.withScheme]
  · intro notStreaming
    have sameStreaming :
        ((w.linked c r tcp opening).requests r).formStreaming = false := by
      simpa [linked] using notStreaming
    obtain ⟨known, plainShape, isKnown⟩ := plain sameStreaming
    subst plainShape
    subst isKnown
    refine ⟨?_, ?_, ?_⟩
    · simp [setRequest, begun, linked]
    · simp only [setRequest, begun, Function.update_self, timer]
    · simp [setRequest, linked]

/-- A request that a client has taken gets its connection, or is refused. -/
theorem taken_linked
    {w taken : World}
    {c r : Nat}
    (idle : (w.clients c).request = none)
    (unlinked : (w.requests r).client = none)
    (checked : (w.requests r).check = none)
    (shape :
      taken =
        w.setRequest r
          { w.requests r with
            client := some c
            uri := (w.requests r).uri.map Uri.withScheme }) :
    ∀ straight,
      straight =
        (if taken.needsConnection c r then
          (taken.openConnection c r).andThen fun next => next.startRequest c r
        else
          taken.startRequest c r) →
      (∃ next, straight = .raise next ∧ Refused w c r next) ∨
        ∃ tcp opening,
          Connects w c (w.requests r).toRequestFields.withScheme tcp opening ∧
            straight = (w.linked c r tcp opening).startRequest c r := by
  have fields :
      (taken.requests r).toRequestFields =
        (w.requests r).toRequestFields.withScheme := by
    simp [shape, setRequest, RequestFields.withScheme]
  have config : taken.config = w.config := by
    simp [shape, setRequest]
  have clients : taken.clients = w.clients := by
    simp [shape, setRequest]
  have netloc :
      taken.netloc r =
        w.config.netloc (w.requests r).toRequestFields.withScheme := by
    simp only [World.netloc, fields, config]
  rintro straight rfl
  split
  · have opens := openConnection_post taken c r
    cases opened : taken.openConnection c r with
    | fault reason =>
        rw [opened] at opens
        exact opens.elim
    | raise next =>
        rw [opened] at opens
        obtain ⟨refuses, tcp, exception, stays, rfl⟩ := opens
        rw [fields] at refuses
        subst shape
        refine Or.inl ⟨_, rfl,
          { toApart := ⟨rfl, rfl, rfl, rfl, rfl, rfl,
              fun other different => by simp [setRequest, different],
              fun other different => by simp [setRequest, different]⟩
            client := ⟨tcp, by simp [setRequest]⟩
            stream := by simpa [setRequest] using stays
            nextConnection := rfl
            request := Or.inr ⟨idle, unlinked, checked, by simp [setRequest],
              refuses⟩
            trace := ⟨exception, rfl⟩ }⟩
    | ok next =>
        rw [opened] at opens
        obtain ⟨_, tcp, timeout, status, connection, eof, tls, nextShape⟩ := opens
        rw [netloc, fields] at nextShape
        refine Or.inr ⟨tcp,
          [.opened c w.nextConnection
            (w.config.netloc (w.requests r).toRequestFields.withScheme)
            timeout tcp.tls tcp.socks], ?_, ?_⟩
        · refine .opens tcp timeout status ?_ eof ?_
          · simpa [shape, setRequest] using connection
          · rw [tls, fields, config]
        · have isLinked :
              next =
                w.linked c r tcp
                  [.opened c w.nextConnection
                    (w.config.netloc (w.requests r).toRequestFields.withScheme)
                    timeout tcp.tls tcp.socks] := by
            subst nextShape
            subst shape
            simp [linked, setRequest, verified]
          rw [← isLinked]
          rfl
  · rename_i reusable
    simp only [needsConnection, Bool.or_eq_true, decide_eq_true_eq,
      Bool.not_eq_true', not_or, Decidable.not_not, ne_eq,
      Bool.not_eq_false] at reusable
    obtain ⟨⟨status, sameNetloc⟩, keepAlive⟩ := reusable
    rw [netloc, clients] at sameNetloc
    rw [clients] at status
    have isLinked : taken = w.linked c r (w.clients c).tcp [] := by
      subst shape
      simp [linked, setRequest, ← sameNetloc]
    refine Or.inr ⟨(w.clients c).tcp, [], ?_, by rw [← isLinked]⟩
    refine .reuses status sameNetloc ?_
    rw [← fields]
    exact keepAlive

/-- `Client::request` refuses the request, or starts it on its connection. -/
theorem clientRequest_linked (w : World) (c r : Nat) :
    (∃ next, w.clientRequest c r = .raise next ∧ Refused w c r next) ∨
      ∃ tcp opening,
        ((w.clients c).request = none ∧
            (w.requests r).client = none ∧
            (w.requests r).check = none) ∧
          Connects w c (w.requests r).toRequestFields.withScheme tcp opening ∧
          w.clientRequest c r = (w.linked c r tcp opening).startRequest c r := by
  have early :
      ∀ exception,
        ∃ next, w.throwing exception = .raise next ∧ Refused w c r next := by
    intro exception
    exact ⟨_, rfl,
      { toApart := Apart.emit w c r _
        client := ⟨(w.clients c).tcp, rfl⟩
        stream := Or.inl ⟨rfl, rfl⟩
        nextConnection := rfl
        request := Or.inl rfl
        trace := ⟨exception, rfl⟩ }⟩
  unfold clientRequest
  split
  · exact Or.inl (early _)
  · split
    · exact Or.inl (early _)
    · rename_i isIdle isUnlinked
      have idle : (w.clients c).request = none := by simpa using isIdle
      have unlinked : (w.requests r).client = none := by simpa using isUnlinked
      split
      · exact Or.inl (early _)
      · rename_i checked
        rcases taken_linked idle unlinked checked rfl _ rfl with
          refused | ⟨tcp, opening, connects, linked⟩
        · exact Or.inl refused
        · exact Or.inr
            ⟨tcp, opening, ⟨idle, unlinked, checked⟩, connects, linked⟩

/-- `Client::request` starts the request or throws an exception. -/
theorem clientRequest_post (w : World) (c r : Nat) :
    (w.clientRequest c r).Post (Started w c r) (Refused w c r)
      (· = .nullInput) := by
  rcases clientRequest_linked w c r with
    ⟨next, refuses, refused⟩ |
      ⟨tcp, opening, ⟨idle, unlinked, checked⟩, connects, starts⟩
  · rw [refuses]
    exact refused
  · rw [starts]
    exact started_of_linked idle unlinked checked connects

/-! ## The pool -/

/-- `finish_request` drops the connection or keeps it, and gives the client back. -/
theorem releaseClient_cases
    (w : World)
    (c r : Nat)
    (response : Option Response)
    (error : Option ErrorCode) :
    ∃ drops : Bool,
      w.releaseClient c r response error =
        ((if drops = true then w.reset c else w.weak c true).stopForm c r).andThen
          fun w =>
            match ((w.rested c).clients c).pool with
            | none => .ok (w.rested c)
            | some p => (w.rested c).putback p c :=
  ⟨_, rfl⟩

/-- `Pool::putback` has given the client its next request, or made it free. -/
inductive PutsBack (w : World) (p c : Nat) : World → Prop where
  | starts {entry : NetLocList} {place : Place} {rest : List Place}
      {next : World} :
      (w.pools p).clients (w.clients c).netloc = some entry →
      entry.queue = place :: rest →
      Started
        (w.setEntry p (w.clients c).netloc (some { entry with queue := rest }))
        c place.req next →
      PutsBack w p c next
  | frees {entry : NetLocList} :
      (w.pools p).clients (w.clients c).netloc = some entry →
      entry.queue = [] →
      c ∈ entry.busy →
      PutsBack w p c
        (w.setEntry p (w.clients c).netloc
          (some
            { entry with
              free := entry.free.insert c
              busy := entry.busy.erase c }))

/-- `Pool::putback` -/
theorem putback_post (w : World) (p c : Nat) :
    (w.putback p c).Post (PutsBack w p c)
      (fun next =>
        ∃ entry place rest,
          (w.pools p).clients (w.clients c).netloc = some entry ∧
            entry.queue = place :: rest ∧
            Refused
              (w.setEntry p (w.clients c).netloc
                (some { entry with queue := rest })) c place.req next)
      (fun reason =>
        reason = .nullInput ∨
          reason = .putbackNoEntry ∧
            (w.pools p).clients (w.clients c).netloc = none ∨
          reason = .putbackNotBusy ∧
            ∃ entry,
              (w.pools p).clients (w.clients c).netloc = some entry ∧
                c ∉ entry.busy) := by
  unfold putback
  dsimp only
  split
  · rename_i absent
    exact Or.inr (Or.inl ⟨rfl, absent⟩)
  · rename_i entry present
    split
    · rename_i place rest queue
      exact (clientRequest_post _ c place.req).imp
        (fun _ => .starts present queue)
        (fun _ refused => ⟨entry, place, rest, present, queue, refused⟩)
        (fun _ => Or.inl)
    · rename_i queue
      split
      · rename_i busy
        exact .frees present queue busy
      · rename_i notBusy
        exact Or.inr (Or.inr ⟨rfl, entry, present, notBusy⟩)

/-- Where `Pool::request` finds a client for a request. -/
inductive Places (w : World) (p : Nat) (key : NetLoc) : Nat → World → Prop where
  /-- A new client. -/
  | creates {entry : NetLocList} :
      ((w.pools p).clients key = none ∧ entry = {} ∨
        (w.pools p).clients key = some entry ∧ entry.free = [] ∧
          entry.busy.length < (w.pools p).maxConnections) →
      Places w p key w.nextClient
        ((w.newClient (w.pools p).loop (some p)).setEntry p key
          (some { entry with busy := entry.busy.insert w.nextClient }))
  /-- A free client. -/
  | reuses {entry : NetLocList} {c : Nat} :
      (w.pools p).clients key = some entry →
      c ∈ entry.free →
      Places w p key c
        (w.setEntry p key
          (some
            { entry with
              free := entry.free.erase c
              busy := entry.busy.insert c }))

/-- What `Pool::request` does with a request: `w` is the state with its `_pool` set. -/
inductive Pooled (w : World) (p r : Nat) : World → Prop where
  | starts {c : Nat} {placed next : World} :
      Places w p (w.netloc r) c placed →
      Started placed c r next →
      Pooled w p r next
  | queues {entry : NetLocList} :
      (w.pools p).clients (w.netloc r) = some entry →
      entry.free = [] →
      (w.pools p).maxConnections ≤ entry.busy.length →
      Pooled w p r (w.enqueue p r (w.netloc r) entry)

/-- `Pool::request` -/
theorem poolRequest_post (w : World) (p r : Nat) :
    (w.poolRequest p r).Post
      (fun next =>
        (w.requests r).check = none ∧
          Pooled (w.setRequest r { w.requests r with pool := some p }) p r next)
      (fun next =>
        (∃ exception, next = w.emit (.threw exception)) ∨
          ∃ c placed,
            Places (w.setRequest r { w.requests r with pool := some p }) p
                ((w.setRequest r
                  { w.requests r with pool := some p }).netloc r) c placed ∧
              Refused placed c r next)
      (· = .nullInput) := by
  unfold poolRequest
  split
  · exact Or.inl ⟨_, rfl⟩
  · rename_i checked
    generalize shape : w.setRequest r { w.requests r with pool := some p } =
      pooled
    have created :
        ∀ entry : NetLocList,
          ((pooled.pools p).clients (pooled.netloc r) = none ∧ entry = {} ∨
            (pooled.pools p).clients (pooled.netloc r) = some entry ∧
              entry.free = [] ∧
              entry.busy.length < (pooled.pools p).maxConnections) →
          (pooled.poolStart p r (pooled.netloc r) entry).Post
            (fun next =>
              (w.requests r).check = none ∧ Pooled pooled p r next)
            (fun next =>
              (∃ exception, next = w.emit (.threw exception)) ∨
                ∃ c placed,
                  Places pooled p (pooled.netloc r) c placed ∧
                    Refused placed c r next)
            (· = .nullInput) := by
      intro entry found
      exact (clientRequest_post _ _ r).imp
        (fun _ started => ⟨checked, .starts (.creates found) started⟩)
        (fun _ refused => Or.inr ⟨_, _, .creates found, refused⟩)
        (fun _ => id)
    dsimp only
    split
    · rename_i absent
      exact created {} (Or.inl ⟨absent, rfl⟩)
    · rename_i entry present
      split
      · rename_i c first
        have isFree : c ∈ entry.free := List.argmin_mem first
        exact (clientRequest_post _ c r).imp
          (fun _ started =>
            ⟨checked, .starts (.reuses present isFree) started⟩)
          (fun _ refused =>
            Or.inr ⟨c, _, .reuses present isFree, refused⟩)
          (fun _ => id)
      · rename_i first
        have noneFree : entry.free = [] := List.argmin_eq_none.mp first
        split
        · rename_i below
          exact created entry (Or.inr ⟨present, noneFree, below⟩)
        · rename_i full
          exact ⟨checked, .queues present noneFree (Nat.le_of_not_lt full)⟩

/-! ## The listeners of an agent -/

/--
An agent acts on the request and the response that the client of a redirect has
by then, and crashes if an earlier listener has taken one of them away.
-/
theorem code_agentRedirect
    (w : World)
    (a : Nat)
    (contextUri : Uri)
    (topLevel : Bool)
    (c : Nat)
    (context : RedirectContext) :
    (∃ reason,
        (reason = .nullResponse ∨ reason = .nullRequest) ∧
          code (.agentRedirect a contextUri topLevel c context) w =
            .fault reason) ∨
      ∃ response r,
        (w.clients c).response = some response ∧
          (w.clients c).request = some r ∧
          code (.agentRedirect a contextUri topLevel c context) w =
            .next
              ((w.collect a response.cookies context.uri).inject a r contextUri
                topLevel (w.agentNow a))
              [] := by
  simp only [code, agentRedirect]
  split
  · exact Or.inl ⟨_, Or.inl rfl, rfl⟩
  · exact Or.inl ⟨_, Or.inr rfl, rfl⟩
  · rename_i response r answered active
    exact Or.inr ⟨response, r, answered, active, rfl⟩

end World

end UniEventHttp.ClientSide
