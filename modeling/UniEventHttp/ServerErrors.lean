import UniEventHttp.ServerDepartures
import UniEventHttp.ServerProgress
import UniEventHttp.ServerQuota

namespace UniEventHttp.ServerConnection

/-!
# Closing after a request error

`request_error` turns keep-alive off in the response of its request when the callback
has returned.  That comes too late for a head that is written before; and a response
that is finished before, or that waits for the end of its request, closes nothing.
-/

/-! ## The property -/

/-- The head of a response to the request says that the connection ends. -/
def saysClose (c : ServerConnection) (req : Nat) (response : ServerResponse) : Bool :=
  !response.keepAlive || !(c.store req).headers.keepAlive

/-- What is to follow the call of `request_error` for a request. -/
structure ClosesAfter (before final : Config) (req : Nat) : Prop where
  /-- Each head that is written for it later says so. -/
  heads :
    ∀ later response,
      final.state.trace = before.state.trace ++ later →
      .wrote (.head req response) ∈ later →
      before.state.saysClose req response = true
  /-- When all is answered and nothing runs, the connection is not open. -/
  ended :
    final.stack = [] →
    (∀ due ∈ before.state.requests, final.state.Completed due) →
    final.state.Closed

/-- `request_error` ends the connection, each time that it is called in a run. -/
def ClosesAfterErrors
    (config : ConnectionConfig)
    (labels : List Label)
    (final : Config) : Prop :=
  ∀ first rest before req error,
    labels = first ++ rest →
    run? config first = some before →
    before.stack.head? = some (.requestError req error) →
    ClosesAfter before final req

/-! ## The condition -/

/-- The application is told of an error of the request. -/
def isReport (req : Nat) : Callback → Bool
  | .errorEvent other (some _) => other == req
  | .partialEvent other (some _) => other == req
  | _ => false

/-- The application has been told of an error of the request. -/
def Reported (c : ServerConnection) (req : Nat) : Prop :=
  c.trace.any (fun event =>
    match event with
    | .fired callback => isReport req callback
    | _ => false) = true

instance (c : ServerConnection) (req : Nat) : Decidable (c.Reported req) :=
  inferInstanceAs (Decidable (_ = _))

/--
`request_error` finds a received request whose head, if it has been written, ends the
connection.
-/
def FailsInTime (c : ServerConnection) (req : Nat) : Prop :=
  c.Done req ∧ ¬ c.Waiting req ∧ (c.Started req → c.Ending)

/-- The response of the first request says close, if its error is being reported. -/
def WritesInTime (c : ServerConnection) (stack : List Frame) : Prop :=
  ∀ req ∈ c.requests.head?,
    .requestErrorReturn req ∈ stack →
    ∀ response ∈ (c.store req).response, c.saysClose req response = true

/-- The last chunk of the response to a failed first request comes after its head. -/
def FinishesInTime (c : ServerConnection) (req : Nat) : Prop :=
  c.Reported req →
  c.Accepts req →
  c.requests.head? = some req →
  c.Started req ∨ c.Ending

/-- The responses to failed requests come in time for their heads to say close. -/
def AnswersInTime (config : Config) : Label → Prop
  | .tick =>
      match config.stack with
      | .requestError req _ :: _ => config.state.FailsInTime req
      | .writeNextResponse :: below => config.state.WritesInTime below
      | _ => True
  | .input (.sendFinalChunk req _) => config.state.FinishesInTime req
  | _ => True

instance (c : ServerConnection) (req : Nat) : Decidable (c.FailsInTime req) :=
  inferInstanceAs (Decidable (_ ∧ _ ∧ (_ → _)))

instance (c : ServerConnection) (stack : List Frame) :
    Decidable (c.WritesInTime stack) :=
  inferInstanceAs (Decidable (∀ req ∈ c.requests.head?, _ → ∀ response ∈ _, _))

instance (c : ServerConnection) (req : Nat) : Decidable (c.FinishesInTime req) :=
  inferInstanceAs (Decidable (_ → _ → _ → _ ∨ _))

instance (config : Config) (label : Label) :
    Decidable (AnswersInTime config label) :=
  match label, config with
  | .tick, ⟨_, [], _⟩ =>
      inferInstanceAs (Decidable True)
  | .tick, ⟨c, frame :: below, _⟩ =>
      match frame with
      | .requestError req _ =>
          inferInstanceAs (Decidable (c.FailsInTime req))
      | .writeNextResponse =>
          inferInstanceAs (Decidable (c.WritesInTime below))
      | .callback _ | .fire _ | .onRead _ | .routed _ _ _ | .received _ _ _ |
        .requestErrorReturn _ | .readIgnore | .finishRequest | .finishReturn |
        .dropRequests _ _ | .dropNotify _ _ | .upgradeReturn =>
          inferInstanceAs (Decidable True)
  | .input called, ⟨c, _, _⟩ =>
      match called with
      | .sendFinalChunk req _ =>
          inferInstanceAs (Decidable (c.FinishesInTime req))
      | .respond _ _ | .sendContinue _ | .sendChunk _ _ | .drop _ | .upgrade _ |
        .enablePartial _ | .close _ | .shutdown _ | .gracefulStop | .onRead _ |
        .onReadError _ | .onEof | .onWrite _ | .onShutdown | .onConnectionError _ |
        .idleTimeout =>
          inferInstanceAs (Decidable True)
  | .ret, _ | .throw, _ =>
      inferInstanceAs (Decidable True)

/-! ## Steps that write no head -/

/-- A step that takes nothing out of the deque and writes no head. -/
structure Unheaded (c next : ServerConnection) : Prop where
  requests : next.requests = c.requests
  nextId : next.nextId = c.nextId
  ends : c.Ending → next.Ending
  silent : c.Silent → next.Silent
  heads : next.heads = c.heads
  headers : ∀ req, (next.store req).headers = (c.store req).headers
  turnsOff :
    ∀ req response,
      (c.store req).response = some response →
      response.keepAlive = false →
      ∃ later, (next.store req).response = some later ∧ later.keepAlive = false

namespace Unheaded

variable {c next : ServerConnection}

theorem refl (c : ServerConnection) : Unheaded c c :=
  ⟨rfl, rfl, id, id, rfl, fun _ => rfl,
    fun _ response stored off => ⟨response, stored, off⟩⟩

theorem trans
    {first second third : ServerConnection}
    (one : Unheaded first second)
    (two : Unheaded second third) :
    Unheaded first third where
  requests := two.requests.trans one.requests
  nextId := two.nextId.trans one.nextId
  ends ends := two.ends (one.ends ends)
  silent silent := two.silent (one.silent silent)
  heads := two.heads.trans one.heads
  headers req := (two.headers req).trans (one.headers req)
  turnsOff req response stored off := by
    obtain ⟨later, storedLater, offLater⟩ := one.turnsOff req response stored off
    exact two.turnsOff req later storedLater offLater

/-- The store stays as it is. -/
theorem of_store
    (requests : next.requests = c.requests)
    (nextId : next.nextId = c.nextId)
    (ends : c.Ending → next.Ending)
    (silent : c.Silent → next.Silent)
    (heads : next.heads = c.heads)
    (store : next.store = c.store) :
    Unheaded c next :=
  ⟨requests, nextId, ends, silent, heads, fun _ => by rw [store],
    fun _ response stored off => ⟨response, by rw [store]; exact stored, off⟩⟩

theorem emit
    (c : ServerConnection)
    {event : Event}
    (noPiece : piece? event = none) :
    Unheaded c (c.emit event) :=
  of_store rfl rfl id id (by simp [ServerConnection.heads, noPiece]) rfl

theorem write
    (c : ServerConnection)
    {piece : Piece}
    (noHead : head? piece = none) :
    Unheaded c (c.write piece) :=
  of_store rfl rfl id id (SameQuota.write c noHead).heads rfl

theorem writeChunks
    (c : ServerConnection)
    (req : Nat)
    (chunks : List Data) :
    Unheaded c (c.writeChunks req chunks) := by
  induction chunks generalizing c with
  | nil =>
      exact refl c
  | cons data rest inductionHypothesis =>
      exact (write c rfl).trans (inductionHypothesis _)

theorem readIgnore (c : ServerConnection) : Unheaded c c.readIgnore :=
  of_store rfl rfl id (Kept.readIgnore c).silent (SameQuota.readIgnore c).heads rfl

theorem startClosing (c : ServerConnection) (req : Nat) :
    Unheaded c (c.startClosing req) := by
  have closing : Unheaded c { c with closing := true } :=
    of_store rfl rfl (fun _ => Or.inl rfl) id rfl rfl
  unfold ServerConnection.startClosing
  dsimp only
  split
  · exact closing.trans (readIgnore _)
  · exact closing

theorem setRequest
    (c : ServerConnection)
    (req : Nat)
    (request : ServerRequest)
    (head : request.head = (c.store req).head)
    (response : request.response = (c.store req).response) :
    Unheaded c (c.setRequest req request) := by
  refine ⟨rfl, rfl, id, id, rfl, fun other => ?_, fun other given stored off => ?_⟩
  · by_cases same : other = req <;> simp [ServerRequest.headers, same, head]
  · by_cases same : other = req
    · exact ⟨given, by simpa [same, response] using stored, off⟩
    · exact ⟨given, by simpa [same] using stored, off⟩

theorem setResponse
    (c : ServerConnection)
    (req : Nat)
    (response : ServerResponse)
    (off :
      ∀ given,
        (c.store req).response = some given →
        given.keepAlive = false →
        response.keepAlive = false) :
    Unheaded c (c.setResponse req response) := by
  refine ⟨rfl, rfl, id, id, rfl, fun other => ?_, fun other given stored isOff => ?_⟩
  · by_cases same : other = req <;> simp [ServerRequest.headers, same]
  · by_cases same : other = req
    · subst other
      exact ⟨response, by simp, off given stored isOff⟩
    · exact ⟨given, by simpa [same] using stored, isOff⟩

theorem takeResponse
    (c : ServerConnection)
    (req : Nat)
    (response : ServerResponse)
    (unanswered : ¬ c.Responded req) :
    Unheaded c (c.takeResponse req response) := by
  refine ⟨rfl, rfl, fun ends => ?_, id, ?_, fun other => ?_, fun other given stored off => ?_⟩
  · refine ends.imp id fun stopping => ?_
    simp [ServerConnection.takeResponse, ServerConnection.emit,
      ServerConnection.setResponse, ServerConnection.setRequest, stopping]
  · simp [ServerConnection.heads, ServerConnection.written,
      ServerConnection.takeResponse, ServerConnection.emit,
      ServerConnection.setResponse, ServerConnection.setRequest, piece?]
  · by_cases same : other = req <;>
      simp [ServerRequest.headers, ServerConnection.takeResponse, ServerConnection.emit,
        same]
  · by_cases same : other = req
    · subst other
      exact absurd (by simp [Responded, stored]) unanswered
    · refine ⟨given, ?_, off⟩
      simpa [ServerConnection.takeResponse, ServerConnection.emit, same] using stored

/-- A request is detached, apart from the deque. -/
theorem cleanupRequest
    (c : ServerConnection)
    (req : Nat)
    (rest : List Nat) :
    Unheaded { c with requests := rest } (c.cleanupRequest req rest) := by
  have detached :
      Unheaded { c with requests := rest }
        (({ c with requests := rest } : ServerConnection).setRequest req
          { c.store req with connection := false }) :=
    setRequest _ req _ rfl rfl
  exact detached.trans (emit _ rfl)

theorem idles (idles : Idles c next) : Unheaded c next := by
  cases idles with
  | busy _ | already _ _ _ =>
      exact refl c
  | arms _ _ _ =>
      exact of_store rfl rfl id id rfl rfl

theorem closes
    {cause : Cause}
    {middle : ServerConnection}
    {error : Option ErrorCode}
    {soft : Bool}
    {frames : List Frame}
    (closes : Closes c cause middle error soft)
    (executed : middle.doClose error soft = .next next frames) :
    Unheaded c next := by
  have quota := SameQuota.closes closes executed
  have reached :
      middle.requests = c.requests ∧ middle.nextId = c.nextId ∧ (c.Ending → middle.Ending) ∧
        (c.Silent → middle.Silent) ∧ middle.store = c.store := by
    cases closes <;> refine ⟨rfl, rfl, id, ?_, rfl⟩ <;>
      simp +contextual [Silent, canRead]
  obtain ⟨requests, nextId, ends, silent, store⟩ := reached
  have closed :
      next.requests = middle.requests ∧ next.nextId = middle.nextId ∧
        (middle.Ending → next.Ending) ∧
        (middle.Silent → next.Silent) ∧ next.store = middle.store := by
    cases soft <;> cases executed <;> refine ⟨rfl, rfl, id, ?_, rfl⟩ <;>
      simp +contextual [Silent, canRead, ServerConnection.emit]
  obtain ⟨requestsNext, nextIdNext, endsNext, silentNext, storeNext⟩ := closed
  exact of_store (requestsNext.trans requests) (nextIdNext.trans nextId) (endsNext ∘ ends)
    (silentNext ∘ silent) quota.heads (storeNext.trans store)

theorem sendsChunk
    {req : Nat}
    {data : Data}
    (sends : SendsChunk c req data next) :
    Unheaded c next := by
  have gave : Unheaded c (c.emit (.gaveChunk req data)) := emit c rfl
  cases sends with
  | empty _ =>
      exact gave
  | writes _ _ =>
      exact gave.trans (write _ rfl)
  | keeps stored =>
      refine gave.trans (setResponse _ req _ fun given isGiven off => ?_)
      rw [show given = _ from Option.some.inj (isGiven.symm.trans stored)] at off
      exact off

theorem sendsFinal
    {req : Nat}
    {data : Data}
    {frames : List Frame}
    (sends : SendsFinal c req data next frames) :
    Unheaded c next := by
  have gave : Unheaded c (c.emit (.gaveFinalChunk req data)) := emit c rfl
  have keeps :
      ∀ {response : ServerResponse},
        (c.store req).response = some response →
        Unheaded c
          ((c.emit (.gaveFinalChunk req data)).setResponse req
            { response with completed := true }) := by
    intro response stored
    refine gave.trans (setResponse _ req _ fun given isGiven off => ?_)
    rw [show given = response from Option.some.inj (isGiven.symm.trans stored)] at off
    exact off
  cases sends with
  | writes stored _ =>
      exact (keeps stored).trans (write _ rfl)
  | keeps stored =>
      exact keeps stored

end Unheaded

/-! ## The heads -/

/-- What holds of a request from the call of `request_error` for it on. -/
structure Failing
    (before : ServerConnection)
    (req : Nat)
    (c : ServerConnection)
    (stack : List Frame) : Prop where
  isOld : req < c.nextId
  silent : c.Silent
  unread : ∀ frame ∈ stack, isReader frame = false
  headers : (c.store req).headers = (before.store req).headers
  /-- The callback runs, or keep-alive has been turned off. -/
  answered :
    .requestErrorReturn req ∈ stack ∨
      ∃ response,
        (c.store req).response = some response ∧ response.keepAlive = false
  written :
    ∃ later,
      c.heads = before.heads ++ later ∧
        ∀ response, (req, response) ∈ later → before.saysClose req response = true

section Failing

variable {before c next : ServerConnection}
variable {req : Nat}
variable {cause : Cause}
variable {stack below frames : List Frame}

/-- A step that writes no head, and that answers what `request_error` has left open. -/
theorem Failing.quiet
    (top : List Frame)
    (failing : Failing before req c (top ++ below))
    (unheaded : Unheaded c next)
    (unread : ∀ frame ∈ frames, isReader frame = false)
    (answers :
      .requestErrorReturn req ∈ top →
      ∃ response,
        (next.store req).response = some response ∧ response.keepAlive = false) :
    Failing before req next (frames ++ below) where
  isOld := by
    rw [unheaded.nextId]
    exact failing.isOld
  silent := unheaded.silent failing.silent
  unread frame member := by
    rcases List.mem_append.mp member with isNew | isOld
    · exact unread frame isNew
    · exact failing.unread frame (List.mem_append_right _ isOld)
  headers := (unheaded.headers req).trans failing.headers
  answered := by
    rcases failing.answered with inStack | ⟨response, stored, off⟩
    · rcases List.mem_append.mp inStack with inTop | inBelow
      · exact Or.inr (answers inTop)
      · exact Or.inl (List.mem_append_right _ inBelow)
    · exact Or.inr (unheaded.turnsOff req response stored off)
  written := by
    rw [unheaded.heads]
    exact failing.written

/-- The deque does not matter. -/
theorem Failing.of_requests
    (failing : Failing before req c stack)
    (requests : List Nat) :
    Failing before req { c with requests := requests } stack :=
  ⟨failing.isOld, failing.silent, failing.unread, failing.headers, failing.answered,
    failing.written⟩

theorem heads_writeHead
    (c : ServerConnection)
    (front : Nat)
    (response : ServerResponse) :
    (c.writeHead front response).heads = c.heads ++ [(front, response)] := by
  have same : (c.setResponse front response).written = c.written := rfl
  simp [ServerConnection.heads, writeHead, head?, same]

/-- The response that is written for the request says close. -/
theorem Failing.saysClose
    {given : ServerResponse}
    {rest : List Nat}
    (failing : Failing before req c (.writeNextResponse :: below))
    (shape : c.requests = req :: rest)
    (stored : (c.store req).response = some given)
    (inTime : c.WritesInTime below) :
    c.saysClose req given = true := by
  rcases failing.answered with inStack | ⟨response, same, off⟩
  · exact inTime req (by simp [shape]) (by simpa using inStack) given stored
  · obtain rfl : given = response := Option.some.inj (stored.symm.trans same)
    simp [ServerConnection.saysClose, off]

/-- The head of the first response is written. -/
theorem Failing.writesHead
    {front : Nat}
    {rest : List Nat}
    {given : ServerResponse}
    (failing : Failing before req c (.writeNextResponse :: below))
    (shape : c.requests = front :: rest)
    (stored : (c.store front).response = some given)
    (inTime : c.WritesInTime below) :
    Failing before req (c.writeHead front (c.prepared given).withoutTmpChunks)
      below := by
  have off :
      ∀ response,
        (c.store front).response = some response →
        response.keepAlive = false →
        (c.prepared given).withoutTmpChunks.keepAlive = false := by
    intro response same isOff
    rw [keepAlive_prepared, Option.some.inj (stored.symm.trans same)]
    exact isOff
  have set := Unheaded.setResponse c front (c.prepared given).withoutTmpChunks off
  have marked :
      Failing before req (c.setResponse front (c.prepared given).withoutTmpChunks)
        ([] ++ below) :=
    Failing.quiet [.writeNextResponse] failing set (by simp) (by simp)
  refine ⟨marked.isOld, marked.silent, marked.unread, marked.headers, marked.answered, ?_⟩
  obtain ⟨later, shown, close⟩ := failing.written
  refine ⟨later ++ [(front, (c.prepared given).withoutTmpChunks)], ?_, ?_⟩
  · rw [heads_writeHead, shown, List.append_assoc]
  · intro response member
    rcases List.mem_append.mp member with old | new
    · exact close response old
    · obtain ⟨rfl, rfl⟩ : req = front ∧ response = (c.prepared given).withoutTmpChunks := by
        simpa using new
      have given := failing.saysClose shape stored inTime
      simpa [ServerConnection.saysClose, keepAlive_prepared, failing.headers]
        using given

/-- A read error is reported for another request, or for this one again. -/
theorem Failing.readFails
    {other : Nat}
    {error : ErrorCode}
    (failing : Failing before req c below)
    (fails : ReadFails { c with stream := { c.stream with ended := true } } next other) :
    Failing before req next (.requestError other error :: below) := by
  have response := (fails.stored failing.isOld).2
  have headers : (next.store req).headers = (c.store req).headers := by
    by_cases same : req = other
    · subst other
      rcases fails.origin with ⟨_, _, _, _, _, stored⟩ | ⟨_, isNext, _⟩
      · simp [stored, ServerRequest.headers]
      · exact absurd failing.isOld (by rw [isNext]; exact Nat.lt_irrefl _)
    · rw [fails.others req same]
  have heads : next.heads = c.heads := by
    unfold ServerConnection.heads
    rw [fails.written]
    rfl
  refine ⟨lt_of_lt_of_le failing.isOld fails.nextId, ?_, ?_, headers.trans failing.headers,
    ?_, ?_⟩
  · simp [Silent, canRead, fails.stream]
  · simpa [isReader] using failing.unread
  · refine failing.answered.imp (List.mem_cons_of_mem _) ?_
    rintro ⟨given, stored, off⟩
    exact ⟨given, response.trans stored, off⟩
  · rw [heads]
    exact failing.written

/-- Every permitted step keeps it. -/
theorem Failing.step
    (failing : Failing before req c (cause.stack ++ below))
    (permitted : AnswersInTime ⟨c, cause.stack ++ below, none⟩ cause.label)
    (deed : Deed c cause next frames) :
    Failing before req next (frames ++ below) := by
  have quiet :
      Unheaded c next →
      (∀ frame ∈ frames, isReader frame = false) →
      (∀ frame ∈ cause.stack, frame ≠ .requestErrorReturn req) →
      Failing before req next (frames ++ below) :=
    fun unheaded unread other =>
      failing.quiet cause.stack unheaded unread fun member => absurd rfl (other _ member)
  cases deed with
  | rests notReturn =>
      exact quiet (.refl c) (by simp) fun frame member => (notReturn frame member).2 req
  | dropped _ =>
      exact quiet (.refl c) (by simp) (by simp [Cause.stack])
  | fires callback =>
      exact quiet (.emit c rfl) (by simp [isReader]) (by simp [Cause.stack])
  | parses _ | delivers _ | goesOn _ =>
      cases failing.unread _ (List.mem_append_left _ (List.mem_singleton_self _))
  | reports other error =>
      exact quiet (.readIgnore c) (by simp [isReader]) (by simp [Cause.stack])
  | @answers _ answered _ _ response answers _ unanswered _ =>
      refine failing.quiet cause.stack (.takeResponse c answered response unanswered)
        (by split <;> simp [isReader]) fun member => ?_
      cases answers with
      | call _ =>
          cases member
      | error =>
          obtain rfl : req = answered := by simpa [Cause.stack] using member
          refine ⟨_, by simp [takeResponse, emit]; rfl, ?_⟩
          simp [defaultErrorResponse]
  | @marks marked response stored =>
      refine failing.quiet [.requestErrorReturn marked]
        (.setResponse c marked _ fun _ _ _ => rfl) (by simp) fun member => ?_
      obtain rfl : req = marked := by simpa using member
      exact ⟨_, by simp; rfl, rfl⟩
  | ignores =>
      exact quiet (.readIgnore c) (by simp) (by simp [Cause.stack])
  | @writes front rest given _ _ shape stored writes =>
      have headed := failing.writesHead shape stored permitted
      have closing :
          Failing before req
            ((c.writeHead front (c.prepared given).withoutTmpChunks).startClosing front)
            ([] ++ below) :=
        headed.quiet [] (.startClosing _ front) (by simp) (by simp)
      have wrote :
          ∀ {middle},
            WritesHead c front rest (c.prepared given).withoutTmpChunks middle →
            Failing before req middle below := by
        intro middle writesHead
        cases writesHead with
        | keepAlive _ _ =>
            exact headed
        | closing _ =>
            exact closing
      cases writes with
      | finish writesHead _ =>
          exact (wrote writesHead).quiet [] (.refl _) (by simp [isReader]) (by simp)
      | flush writesHead _ =>
          exact (wrote writesHead).quiet [] (.writeChunks _ _ _) (by simp) (by simp)
      | hold _ _ =>
          exact (closing.of_requests rest).quiet [] (.refl _) (by simp [isReader])
            (by simp)
  | waits _ _ _ =>
      exact quiet (.setRequest c _ _ rfl rfl) (by simp) (by simp [Cause.stack])
  | enables _ =>
      exact quiet (.setRequest c _ _ rfl rfl) (by simp) (by simp [Cause.stack])
  | @leaves front rest _ _ _ =>
      exact (failing.of_requests rest).quiet [.finishRequest]
        (.cleanupRequest c front rest) (by simp [isReader]) (by simp)
  | takesUp _ _ _ _ =>
      exact quiet (.refl c) (by simp [isReader]) (by simp [Cause.stack])
  | returns _ _ _ idles =>
      exact quiet (.idles idles) (by simp) (by simp [Cause.stack])
  | closes closes executed =>
      have pushed := (doClose_next executed).2
      exact quiet (.closes closes executed) (by simp [pushed, isReader])
        (by cases closes <;> simp [Cause.stack])
  | @pops error returns front rest _ =>
      exact (failing.of_requests rest).quiet [.dropRequests error returns]
        ((Unheaded.cleanupRequest c front rest).trans (.emit _ rfl))
        (by simp [isReader]) (by simp)
  | @finishesHeld error front tmpChunks _ _ =>
      exact (failing.of_requests [front]).quiet
        [.dropRequests error (.writeNextResponse front tmpChunks)] (.refl _)
        (by simp [isReader]) (by simp)
  | @flushesHeld error front tmpChunks _ _ =>
      exact (failing.of_requests [front]).quiet
        [.dropRequests error (.writeNextResponse front tmpChunks)]
        (.writeChunks _ front tmpChunks) (by simp) (by simp)
  | notifies notifies =>
      exact quiet (.refl c) (by simp [isReader]) (by simp [Cause.stack])
  | @removes frame removes =>
      refine quiet (.emit c rfl) (by simp [isReader]) ?_
      rcases removes with rfl | ⟨⟨error, rfl⟩, _⟩ <;> simp [Cause.stack]
  | shutsDown _ =>
      have stopped : Unheaded c
          { c.stopIdleTimer with stream := { c.stream with listener := false } } := by
        refine .of_store rfl rfl id ?_ rfl rfl
        simp +contextual [Silent, canRead]
      exact quiet (stopped.trans (.emit _ rfl)) (by simp [isReader]) (by simp [Cause.stack])
  | @upgrades upgraded _ _ _ =>
      have handed : Unheaded c
          { c with
            stream := { c.stream with listener := false }
            idleTimer := none } := by
        refine .of_store rfl rfl id ?_ rfl rfl
        simp +contextual [Silent, canRead]
      have gone :
          Failing before req
            (({ c with
              stream := { c.stream with listener := false }
              idleTimer := none } : ServerConnection).emit (.upgraded upgraded))
            ([] ++ below) :=
        failing.quiet [] (handed.trans (.emit _ rfl)) (by simp) (by simp)
      exact (gone.of_requests []).quiet [] (.cleanupRequest _ upgraded [])
        (by simp [isReader]) (by simp)
  | stops _ =>
      exact quiet (.of_store rfl rfl (fun _ => Or.inr rfl) id rfl rfl) (by simp)
        (by simp [Cause.stack])
  | continues _ _ =>
      exact quiet (.write c rfl) (by simp) (by simp [Cause.stack])
  | sendsChunk _ sends =>
      exact quiet (.sendsChunk sends) (by simp) (by simp [Cause.stack])
  | sendsFinal _ sends =>
      refine quiet (.sendsFinal sends) ?_ (by simp [Cause.stack])
      cases sends <;> simp [isReader]
  | receives buf notSilent =>
      exact absurd failing.silent notSilent
  | fails _ fails =>
      exact failing.readFails fails
  | written _ _ idles =>
      have wrote : Unheaded c
          { c with
            stream := { c.stream with writeQueue := c.stream.writeQueue - 1 } } :=
        .of_store rfl rfl id id rfl rfl
      exact quiet (wrote.trans (.idles idles)) (by simp) (by simp [Cause.stack])

end Failing

/-! ## The end of the connection -/

/-- The end of `finish_request` is to come, or a request that is due is answered. -/
def Anchored (due : List Nat) (c : ServerConnection) (stack : List Frame) : Prop :=
  .finishReturn ∈ stack ∨
    ∃ first ∈ due,
      (held stack).getLast? = some first ∨
        held stack = [] ∧ c.requests.head? = some first

/-- The failed request waits for its turn behind requests that are due. -/
structure Waits
    (due : List Nat)
    (req : Nat)
    (c : ServerConnection)
    (stack : List Frame) : Prop where
  noneHeld : held stack = []
  unwritten : ¬ c.Started req
  reported :
    c.Reported req ∨
      ∃ callback,
        stack.head? = some (.fire callback) ∧ isReport req callback = true
  place :
    ∃ earlier later,
      c.requests = earlier ++ req :: later ∧ ∀ other ∈ earlier, other ∈ due
  calm : .finishRequest ∉ stack.tail
  finishing : stack.head? = some .finishRequest → c.requests.head? ≠ some req

/-- What is known of an open connection from a request error on. -/
inductive Lapsing
    (due : List Nat)
    (req : Nat)
    (c : ServerConnection)
    (stack : List Frame) : Prop where
  | ends :
      c.Ending →
      Anchored due c stack →
      Lapsing due req c stack
  | waits :
      Waits due req c stack →
      Lapsing due req c stack

section Lapsing

variable {due : List Nat}
variable {before c next : ServerConnection}
variable {req : Nat}
variable {cause : Cause}
variable {stack below frames : List Frame}
variable {may : Event → Bool}

/-- The deque and what is held stay as they are, and `finish_request` does not return. -/
theorem Anchored.quiet
    (top frames : List Frame)
    (anchored : Anchored due c (top ++ below))
    (requests : next.requests = c.requests)
    (sameHeld : held frames = held top)
    (returns : .finishReturn ∉ top) :
    Anchored due next (frames ++ below) := by
  unfold Anchored at anchored ⊢
  rw [held_append] at anchored ⊢
  rw [sameHeld, requests]
  refine anchored.imp_left fun inStack => List.mem_append_right _ ?_
  exact (List.mem_append.mp inStack).resolve_left returns

/-- The first request is due. -/
theorem Waits.front
    (waits : Waits due req c stack)
    (inDue : req ∈ due) :
    ∃ front ∈ due, c.requests.head? = some front := by
  obtain ⟨earlier, later, shape, dueBefore⟩ := waits.place
  cases earlier with
  | nil =>
      exact ⟨req, inDue, by simp [shape]⟩
  | cons front others =>
      exact ⟨front, dueBefore front List.mem_cons_self, by simp [shape]⟩

theorem Lapsing.anchored
    (lapsing : Lapsing due req c stack)
    (inDue : req ∈ due) :
    Anchored due c stack := by
  cases lapsing with
  | ends _ anchored =>
      exact anchored
  | waits waits =>
      obtain ⟨front, isDue, isFront⟩ := waits.front inDue
      exact Or.inr ⟨front, isDue, Or.inr ⟨waits.noneHeld, isFront⟩⟩

/-- The failed request goes on waiting. -/
theorem Waits.quiet
    (top frames : List Frame)
    (waits : Waits due req c (top ++ below))
    (requests : next.requests = c.requests)
    (unwritten : ¬ next.Started req)
    (sameHeld : held frames = held top)
    (free : .finishRequest ∉ below)
    (reported : next.Reported req)
    (finishes :
      frames.head? = some .finishRequest → c.requests.head? ≠ some req)
    (called : .finishRequest ∉ frames.tail) :
    Waits due req next (frames ++ below) where
  noneHeld := by
    rw [held_append, sameHeld, ← held_append]
    exact waits.noneHeld
  unwritten := unwritten
  reported := Or.inl reported
  place := by
    rw [requests]
    exact waits.place
  calm inTail := by
    cases frames with
    | nil =>
        exact free (List.mem_of_mem_tail inTail)
    | cons first others =>
        rcases List.mem_append.mp inTail with isNew | isOld
        · exact called isNew
        · exact free isOld
  finishing isTop := by
    rw [requests]
    cases frames with
    | nil =>
        exact absurd (List.mem_of_mem_head? isTop) free
    | cons first others =>
        exact finishes isTop

theorem Reported.grows
    (reported : c.Reported req)
    (grows : Grows may c.trace next.trace) :
    next.Reported req := by
  unfold Reported at reported ⊢
  rw [List.any_eq_true] at reported ⊢
  obtain ⟨event, member, isReported⟩ := reported
  exact ⟨event, grows.mem member, isReported⟩

theorem not_started_of_unheaded
    (unheaded : Unheaded c next)
    (unwritten : ¬ c.Started req) :
    ¬ next.Started req := by
  rw [← mem_headed] at unwritten ⊢
  unfold headed at unwritten ⊢
  rwa [unheaded.heads]

/-- The head of another request is written. -/
theorem not_started_of_writesHead
    {front : Nat}
    {rest : List Nat}
    {response : ServerResponse}
    (different : front ≠ req)
    (writesHead : WritesHead c front rest response next)
    (unwritten : ¬ c.Started req) :
    ¬ next.Started req := by
  have headed : ¬ (c.writeHead front response).Started req := by
    rw [← mem_headed] at unwritten ⊢
    unfold headed at unwritten ⊢
    rw [heads_writeHead]
    simpa [Ne.symm different] using unwritten
  cases writesHead with
  | keepAlive _ _ =>
      exact headed
  | closing _ =>
      exact not_started_of_unheaded (.startClosing _ front) headed

/-- A request that is due has been taken out of the deque, or it has been put back. -/
theorem Anchored.restore
    {front : Nat}
    {error : Option ErrorCode}
    {tmpChunks : List Data}
    (anchored :
      Anchored due c (.dropRequests error (.writeNextResponse front tmpChunks) :: below))
    (requests : next.requests = [front])
    (called : held frames = []) :
    Anchored due next (frames ++ below) := by
  have sameHeld : held (frames ++ below) = held below := by
    rw [held_append, called, List.nil_append]
  have wasHeld :
      held (.dropRequests error (.writeNextResponse front tmpChunks) :: below) =
        front :: held below := rfl
  unfold Anchored
  rw [sameHeld, requests]
  rcases anchored with inStack | ⟨first, isDue, isLast | ⟨none, _⟩⟩
  · exact Or.inl (List.mem_append_right _ (by simpa using inStack))
  · refine Or.inr ⟨first, isDue, ?_⟩
    rw [wasHeld] at isLast
    cases shape : held below with
    | nil =>
        rw [shape] at isLast
        exact Or.inr ⟨rfl, by simpa using isLast⟩
    | cons other others =>
        rw [shape] at isLast
        exact Or.inl (by simpa using isLast)
  · rw [wasHeld] at none
    cases none

/-- The first request is held while those behind it are dropped. -/
theorem Anchored.hold
    {front : Nat}
    {rest : List Nat}
    {error : Option ErrorCode}
    {tmpChunks : List Data}
    (anchored : Anchored due c (.writeNextResponse :: below))
    (shape : c.requests = front :: rest) :
    Anchored due next
      (.dropRequests error (.writeNextResponse front tmpChunks) :: below) := by
  have nowHeld :
      held (.dropRequests error (.writeNextResponse front tmpChunks) :: below) =
        front :: held below := rfl
  have wasHeld : held (.writeNextResponse :: below) = held below := rfl
  unfold Anchored at anchored ⊢
  rw [wasHeld] at anchored
  rw [nowHeld]
  rcases anchored with inStack | ⟨first, isDue, isLast | ⟨none, isFront⟩⟩
  · exact Or.inl (List.mem_cons_of_mem _ (by simpa using inStack))
  · refine Or.inr ⟨first, isDue, Or.inl ?_⟩
    cases others : held below with
    | nil =>
        simp [others] at isLast
    | cons other others' =>
        rw [others] at isLast
        simpa using isLast
  · obtain rfl : front = first := by simpa [shape] using isFront
    exact Or.inr ⟨front, isDue, Or.inl (by simp [none])⟩

/-- A step that writes no head, and that does not go on with `finish_request`. -/
theorem Lapsing.quiet
    (top frames : List Frame)
    (lapsing : Lapsing due req c (top ++ below))
    (unheaded : Unheaded c next)
    (sameHeld : held frames = held top)
    (returns : c.Ending → .finishReturn ∉ top)
    (notFinishing : .finishRequest ∉ frames)
    (waits :
      Waits due req c (top ++ below) → .finishRequest ∉ below ∧ next.Reported req) :
    Lapsing due req next (frames ++ below) := by
  cases lapsing with
  | ends ending anchored =>
      exact .ends (unheaded.ends ending)
        (Anchored.quiet top frames anchored unheaded.requests sameHeld (returns ending))
  | waits isWaiting =>
      obtain ⟨free, reported⟩ := waits isWaiting
      exact .waits (Waits.quiet top frames isWaiting unheaded.requests
        (not_started_of_unheaded unheaded isWaiting.unwritten) sameHeld free reported
        (fun isTop => absurd (List.mem_of_mem_head? isTop) notFinishing)
        fun inTail => notFinishing (List.mem_of_mem_tail inTail))

/-- Where application code runs, the failed request has been reported. -/
theorem Waits.atBoundary
    (waits : Waits due req c stack)
    (boundary : machine.atBoundary stack = true) :
    .finishRequest ∉ stack ∧ c.Reported req := by
  constructor
  · intro member
    cases stack with
    | nil =>
        cases member
    | cons first others =>
        rcases List.mem_cons.mp member with rfl | inTail
        · cases boundary
        · exact waits.calm inTail
  · refine waits.reported.resolve_right ?_
    rintro ⟨callback, isTop, _⟩
    obtain ⟨other, same⟩ := callback_of_boundary boundary isTop
    cases same

theorem ending_startClosing (c : ServerConnection) (front : Nat) :
    (c.startClosing front).Ending := by
  unfold ServerConnection.startClosing
  dsimp only
  split <;> exact Or.inl rfl

/-- The head of the first response is written: for the failed request, it says close. -/
theorem Lapsing.writesHead
    {front : Nat}
    {rest : List Nat}
    {given : ServerResponse}
    {middle : ServerConnection}
    (lapsing : Lapsing due req c (.writeNextResponse :: below))
    (failing : Failing before req c (.writeNextResponse :: below))
    (inDue : req ∈ due)
    (inTime : c.WritesInTime below)
    (shape : c.requests = front :: rest)
    (stored : (c.store front).response = some given)
    (writesHead :
      WritesHead c front rest (c.prepared given).withoutTmpChunks middle)
    (unheaded : Unheaded middle next)
    (grows : Grows may c.trace next.trace)
    (called : frames = [] ∨ frames = [.finishRequest]) :
    Lapsing due req next (frames ++ below) := by
  have requests : next.requests = c.requests := by
    rw [unheaded.requests]
    cases writesHead with
    | keepAlive _ _ =>
        rfl
    | closing _ =>
        exact (Unheaded.startClosing _ front).requests
  have ends : c.Ending → next.Ending := by
    refine fun ending => unheaded.ends ?_
    cases writesHead with
    | keepAlive _ _ =>
        exact ending
    | closing _ =>
        exact ending_startClosing _ front
  have sameHeld : held frames = held [.writeNextResponse] := by
    rcases called with rfl | rfl <;> rfl
  have anchored : Anchored due next (frames ++ below) :=
    Anchored.quiet [.writeNextResponse] frames (lapsing.anchored inDue) requests sameHeld
      (by simp)
  cases lapsing with
  | ends ending _ =>
      exact .ends (ends ending) anchored
  | waits waits =>
      by_cases same : front = req
      · subst front
        have close := failing.saysClose shape stored inTime
        cases writesHead with
        | keepAlive keeps reqKeeps =>
            rw [keepAlive_prepared] at keeps
            simp [ServerConnection.saysClose, keeps, reqKeeps] at close
        | closing _ =>
            exact .ends (unheaded.ends (ending_startClosing _ req)) anchored
      · have known : c.Reported req := by
          refine waits.reported.resolve_right ?_
          rintro ⟨callback, isTop, _⟩
          cases isTop
        refine .waits (Waits.quiet [.writeNextResponse] frames waits requests
          (not_started_of_unheaded unheaded
            (not_started_of_writesHead same writesHead waits.unwritten))
          sameHeld waits.calm (known.grows grows) (fun _ => by simp [shape, same]) ?_)
        rcases called with rfl | rfl <;> simp

/-- A request that is due is held while those behind it are dropped. -/
theorem Lapsing.holds
    {front : Nat}
    {rest : List Nat}
    {error : Option ErrorCode}
    {tmpChunks : List Data}
    (lapsing : Lapsing due req c (.writeNextResponse :: below))
    (inDue : req ∈ due)
    (shape : c.requests = front :: rest)
    (ending : next.Ending) :
    Lapsing due req next
      (.dropRequests error (.writeNextResponse front tmpChunks) :: below) := by
  refine .ends ending ?_
  cases lapsing with
  | ends _ anchored =>
      exact anchored.hold shape
  | waits isWaiting =>
      obtain ⟨first, isDue, isFirst⟩ := isWaiting.front inDue
      obtain rfl : front = first := by simpa [shape] using isFirst
      have noneBelow : held below = [] := isWaiting.noneHeld
      refine Or.inr ⟨front, isDue, Or.inl ?_⟩
      have nowHeld :
          held (.dropRequests error (.writeNextResponse front tmpChunks) :: below) =
            front :: held below := rfl
      rw [nowHeld, noneBelow]
      rfl

/-- The application is told of the error. -/
theorem Lapsing.fires
    {callback : Callback}
    (lapsing : Lapsing due req c (.fire callback :: below)) :
    Lapsing due req (c.emit (.fired callback)) (.callback callback :: below) := by
  have grows : Grows (fun _ => true) c.trace (c.emit (.fired callback)).trace :=
    Grows.snoc c.trace rfl
  cases lapsing with
  | ends ending anchored =>
      exact .ends ending (Anchored.quiet [.fire callback] [.callback callback] anchored
        rfl rfl (by simp))
  | waits waits =>
      refine .waits (Waits.quiet [.fire callback] [.callback callback] waits rfl
        (not_started_of_unheaded (.emit c rfl) waits.unwritten) rfl waits.calm ?_
        (by simp) (by simp))
      rcases waits.reported with known | ⟨other, isTop, isReported⟩
      · exact known.grows grows
      · obtain rfl : callback = other := by simpa using isTop
        simp [Reported, emit, isReported]

/-- The first request is taken out, behind which the failed one waits. -/
theorem Lapsing.leaves
    {front : Nat}
    {rest : List Nat}
    (lapsing : Lapsing due req c (.finishRequest :: below))
    (shape : c.requests = front :: rest) :
    Lapsing due req (c.cleanupRequest front rest)
      (.fire (.finishEvent front) :: .finishReturn :: below) := by
  cases lapsing with
  | ends ending _ =>
      exact .ends ending (Or.inl (by simp))
  | waits waits =>
      have different : front ≠ req := by simpa [shape] using waits.finishing rfl
      have grows :
          Grows (fun _ => true) c.trace (c.cleanupRequest front rest).trace :=
        Grows.snoc c.trace rfl
      have known : c.Reported req := by
        refine waits.reported.resolve_right ?_
        rintro ⟨callback, isTop, _⟩
        cases isTop
      refine .waits
        { noneHeld := waits.noneHeld
          unwritten :=
            not_started_of_unheaded (.cleanupRequest c front rest) waits.unwritten
          reported := Or.inl (known.grows grows), place := ?_
          calm := by simpa using waits.calm
          finishing := by simp }
      obtain ⟨earlier, later, place, dueBefore⟩ := waits.place
      rw [shape] at place
      cases earlier with
      | nil =>
          exact absurd (List.cons.inj place).1 different
      | cons first others =>
          exact ⟨others, later, (List.cons.inj place).2,
            fun other member => dueBefore other (List.mem_cons_of_mem _ member)⟩

/-- A read error adds a request behind the others. -/
theorem Lapsing.readFails
    {other : Nat}
    {error : ErrorCode}
    (lapsing : Lapsing due req c [])
    (grows : Grows may c.trace next.trace)
    (fails : ReadFails { c with stream := { c.stream with ended := true } } next other) :
    Lapsing due req next [.requestError other error] := by
  have appended : ∃ new, next.requests = c.requests ++ new := by
    rcases fails.origin with ⟨_, _, same, _⟩ | ⟨_, _, joined, _⟩
    · exact ⟨[], by simp [same]⟩
    · exact ⟨[other], joined⟩
  obtain ⟨new, requests⟩ := appended
  have sameHeads : next.heads = c.heads := by
    unfold ServerConnection.heads
    rw [fails.written]
    rfl
  cases lapsing with
  | ends ending anchored =>
      refine .ends (by rwa [ServerConnection.Ending, fails.closing, fails.stopping]) ?_
      rcases anchored with inStack | ⟨first, isDue, isHeld | ⟨_, isFirst⟩⟩
      · cases inStack
      · simp [held] at isHeld
      · refine Or.inr ⟨first, isDue, Or.inr ⟨rfl, ?_⟩⟩
        rw [requests, List.head?_append, isFirst]
        rfl
  | waits waits =>
      have known : c.Reported req := waits.reported.resolve_right (by simp)
      refine .waits
        { noneHeld := rfl, unwritten := ?_
          reported := Or.inl (known.grows grows), place := ?_
          calm := by simp, finishing := by simp }
      · have unwritten := waits.unwritten
        rw [← mem_headed] at unwritten ⊢
        unfold headed at unwritten ⊢
        rwa [sameHeads]
      · obtain ⟨earlier, later, place, dueBefore⟩ := waits.place
        exact ⟨earlier, later ++ new, by simp [requests, place], dueBefore⟩

/-- Every permitted step of an open connection keeps it, or closes the connection. -/
theorem Lapsing.step
    (lapsing : Lapsing due req c (cause.stack ++ below))
    (failing : Failing before req c (cause.stack ++ below))
    (inDue : req ∈ due)
    (flow : Flow c (cause.stack ++ below))
    (fits : cause.Fits below)
    (permitted : AnswersInTime ⟨c, cause.stack ++ below, none⟩ cause.label)
    (grows : Grows may c.trace next.trace)
    (notFire : ∀ callback, cause.stack ≠ [.fire callback])
    (deed : Deed c cause next frames) :
    next.Closed ∨ Lapsing due req next (frames ++ below) := by
  have free :
      Waits due req c (cause.stack ++ below) → .finishRequest ∉ below := by
    intro waits
    cases cause with
    | frame top =>
        exact waits.calm
    | input called =>
        exact (waits.atBoundary fits.1).1
  have known : Waits due req c (cause.stack ++ below) → c.Reported req := by
    intro waits
    cases cause with
    | frame top =>
        refine waits.reported.resolve_right ?_
        rintro ⟨callback, isTop, _⟩
        obtain rfl : top = .fire callback := by simpa [Cause.stack] using isTop
        exact notFire callback rfl
    | input called =>
        exact (waits.atBoundary fits.1).2
  have quiet :
      Unheaded c next →
      held frames = held cause.stack →
      (c.Ending → .finishReturn ∉ cause.stack) →
      .finishRequest ∉ frames →
      next.Closed ∨ Lapsing due req next (frames ++ below) := by
    intro unheaded sameHeld returns notFinishing
    exact Or.inr (Lapsing.quiet cause.stack frames lapsing unheaded sameHeld returns
      notFinishing fun waits => ⟨free waits, (known waits).grows grows⟩)
  cases deed with
  | rests notReturn =>
      refine quiet (.refl c) ?_ ?_ (by simp)
      · cases cause with
        | input _ =>
            rfl
        | frame top =>
            have notSuspended := (notReturn top (by simp [Cause.stack])).1
            cases top <;> first | rfl | cases notSuspended
      · intro _ member
        cases (notReturn _ member).1
  | @dropped error _ =>
      exact absurd List.mem_cons_self (flow.noClose error true)
  | fires callback =>
      exact absurd rfl (notFire callback)
  | parses _ | delivers _ | goesOn _ =>
      cases failing.unread _ (List.mem_append_left _ (List.mem_singleton_self _))
  | reports _ _ =>
      exact quiet (.readIgnore c) rfl (by simp [Cause.stack]) (by simp)
  | @answers _ answered _ _ response answers _ unanswered _ =>
      refine quiet (.takeResponse c answered response unanswered) ?_ ?_ ?_
      · cases answers <;> split <;> rfl
      · cases answers <;> simp [Cause.stack]
      · split <;> simp
  | marks stored =>
      exact quiet (.setResponse c _ _ fun _ _ _ => rfl) rfl (by simp [Cause.stack])
        (by simp)
  | ignores =>
      exact quiet (.readIgnore c) rfl (by simp [Cause.stack]) (by simp)
  | @writes front rest given _ _ shape stored writes =>
      right
      cases writes with
      | finish writesHead _ =>
          exact lapsing.writesHead failing inDue permitted shape stored writesHead (.refl _)
            grows (Or.inr rfl)
      | flush writesHead _ =>
          exact lapsing.writesHead failing inDue permitted shape stored writesHead
            (.writeChunks _ _ _) grows (Or.inl rfl)
      | hold _ _ =>
          exact lapsing.holds inDue shape (ending_startClosing _ front)
  | waits _ _ _ =>
      exact quiet (.setRequest c _ _ rfl rfl) rfl (by simp [Cause.stack]) (by simp)
  | enables _ =>
      exact quiet (.setRequest c _ _ rfl rfl) rfl (by simp [Cause.stack]) (by simp)
  | leaves shape _ _ =>
      exact Or.inr (lapsing.leaves shape)
  | takesUp notClosing notStopping _ _ =>
      exact quiet (.refl c) rfl
        (by simp [ServerConnection.Ending, notClosing, notStopping]) (by simp)
  | returns notClosing notStopping _ idles =>
      exact quiet (.idles idles) rfl
        (by simp [ServerConnection.Ending, notClosing, notStopping]) (by simp)
  | closes closes executed =>
      exact Or.inl (doClose_next executed).1
  | @pops error returns front rest _ =>
      right
      cases returns with
      | doClose soft =>
          exact absurd List.mem_cons_self (flow.noClose error soft)
      | writeNextResponse other tmpChunks =>
          cases lapsing with
          | waits waits =>
              cases waits.noneHeld
          | ends ending anchored =>
              refine .ends ending ?_
              rcases anchored with inStack | ⟨first, isDue, isLast | ⟨none, _⟩⟩
              · exact Or.inl (List.mem_append_right _ (by simpa [Cause.stack] using inStack))
              · exact Or.inr ⟨first, isDue, Or.inl isLast⟩
              · cases none
  | @finishesHeld error front tmpChunks _ _ =>
      right
      cases lapsing with
      | waits waits =>
          cases waits.noneHeld
      | ends ending anchored =>
          exact .ends ending (anchored.restore rfl rfl)
  | @flushesHeld error front tmpChunks _ _ =>
      right
      have unheaded :=
        Unheaded.writeChunks { c with requests := [front] } front tmpChunks
      cases lapsing with
      | waits waits =>
          cases waits.noneHeld
      | ends ending anchored =>
          exact .ends (unheaded.ends ending) (anchored.restore unheaded.requests rfl)
  | notifies notifies =>
      exact quiet (.refl c) rfl (by simp [Cause.stack]) (by simp)
  | @removes frame removes =>
      refine quiet (.emit c rfl) ?_ ?_ (by simp) <;>
        rcases removes with rfl | ⟨⟨error, rfl⟩, _⟩ <;>
        first | rfl | simp [Cause.stack]
  | shutsDown shut =>
      rw [flow.notShut] at shut
      cases shut
  | upgrades _ _ _ =>
      left
      simp [Closed, cleanupRequest, emit, setRequest, isEnd]
  | stops _ =>
      exact quiet (.of_store rfl rfl (fun _ => Or.inr rfl) id rfl rfl) rfl
        (by simp [Cause.stack]) (by simp)
  | continues _ _ =>
      exact quiet (.write c rfl) rfl (by simp [Cause.stack]) (by simp)
  | sendsChunk _ sends =>
      exact quiet (.sendsChunk sends) rfl (by simp [Cause.stack]) (by simp)
  | @sendsFinal sent data _ _ accepts sends =>
      have unheaded := Unheaded.sendsFinal sends
      cases sends with
      | keeps _ =>
          exact quiet unheaded rfl (by simp [Cause.stack]) (by simp)
      | writes _ shape =>
          right
          have anchored :=
            Anchored.quiet [] [.finishRequest] (lapsing.anchored inDue) unheaded.requests
              rfl (by simp)
          by_cases ending : c.Ending
          · exact .ends (unheaded.ends ending) anchored
          · cases lapsing with
            | ends isEnding _ =>
                exact absurd isEnding ending
            | waits waits =>
                refine .waits (Waits.quiet [] [.finishRequest] waits unheaded.requests
                  (not_started_of_unheaded unheaded waits.unwritten) rfl (free waits)
                  ((known waits).grows grows) (fun _ isFront => ?_) (by simp))
                obtain rfl : sent = req := by simpa [shape] using isFront
                have inTime := permitted (known waits) accepts (by simp [shape])
                exact inTime.elim waits.unwritten ending
  | receives buf notSilent =>
      exact absurd failing.silent notSilent
  | fails _ fails =>
      obtain rfl : below = [] := fits.2 rfl
      exact Or.inr (lapsing.readFails grows fails)
  | written _ _ idles =>
      have wrote : Unheaded c
          { c with
            stream := { c.stream with writeQueue := c.stream.writeQueue - 1 } } :=
        .of_store rfl rfl id id rfl rfl
      exact quiet (wrote.trans (.idles idles)) rfl (by simp [Cause.stack]) (by simp)

/-- When nothing runs and all that is due is answered, the connection is stuck or closed. -/
theorem Lapsing.not_unstuck
    (lapsing : Lapsing due req c [])
    (inDue : req ∈ due)
    (silent : c.Silent)
    (answered : ∀ other ∈ due, c.Completed other) :
    ¬ Unstuck c := by
  intro unstuck
  have first : ∃ front ∈ due, c.requests.head? = some front := by
    rcases lapsing.anchored inDue with
      inStack | ⟨front, isDue, isHeld | ⟨_, isFront⟩⟩
    · cases inStack
    · simp [held] at isHeld
    · exact ⟨front, isDue, isFront⟩
  obtain ⟨front, isDue, isFront⟩ := first
  exact (unstuck.waits front isFront (answered front isDue)).2.2 silent

end Lapsing

/-! ## Where request errors are reported -/

/-- `request_error` is called by `on_read`, which nothing else has called. -/
def FailsAlone (c : ServerConnection) (stack : List Frame) : Prop :=
  ∀ req error,
    .requestError req error ∈ stack →
    req < c.nextId ∧
      (stack = [.requestError req error] ∨
        stack = [.requestError req error, .readIgnore])

theorem FailsAlone.step
    {c next : ServerConnection}
    {cause : Cause}
    {below frames : List Frame}
    (alone : FailsAlone c (cause.stack ++ below))
    (receiving : Receiving c (cause.stack ++ below))
    (fits : cause.Fits below)
    (deed : Deed c cause next frames) :
    FailsAlone next (frames ++ below) := by
  intro req error member
  have notBelow : .requestError req error ∉ below := by
    intro inBelow
    have shape := (alone req error (List.mem_append_right _ inBelow)).2
    cases cause with
    | frame top =>
        rcases shape with shape | shape <;>
          obtain ⟨_, rfl⟩ := List.cons.inj shape <;> simp at inBelow
    | input called =>
        have boundary := fits.1
        rcases shape with shape | shape <;>
          rw [show below = _ from shape] at boundary <;> cases boundary
  have inFrames := (List.mem_append.mp member).resolve_right notBelow
  cases deed with
  | @parses result rest next frames admits =>
      obtain rfl : below = [] := receiving.alone rfl
      have parses := parseRequest_parses c result
      have isOld : (c.parseRequest result).2 < (c.parseRequest result).1.nextId := by
        obtain ⟨_, _, ⟨parsing, _, same, _⟩ | ⟨_, _, isNext, grows, _⟩⟩ := parses.origin
        · rw [same]
          exact (receiving.parsingNewest _ parsing).1
        · omega
      cases admits with
      | error _ | refuses _ _ _ =>
          simp only [List.mem_cons, Frame.requestError.injEq, reduceCtorEq, or_false,
            List.not_mem_nil] at inFrames
          obtain ⟨rfl, rfl⟩ := inFrames
          exact ⟨isOld, by simp⟩
      | headers _ | again _ _ | routes _ _ _ =>
          simp at inFrames
  | @fails _ failed next _ fails =>
      obtain rfl : below = [] := fits.2 rfl
      obtain ⟨rfl, rfl⟩ : req = failed ∧ error = _ := by simpa using inFrames
      refine ⟨?_, Or.inl rfl⟩
      rcases fails.origin with ⟨last, _, _, same, _⟩ | ⟨_, isNext, _, grows, _⟩
      · rw [same]
        exact receiving.requestsBelow req (List.mem_of_getLast? last)
      · rw [grows, isNext]
        exact Nat.lt_succ_self _
  | delivers delivers =>
      cases delivers <;> simp at inFrames
  | goesOn goesOn =>
      cases goesOn <;> simp at inFrames
  | answers _ _ _ _ =>
      split at inFrames <;> simp at inFrames
  | writes _ _ writes =>
      cases writes <;> simp at inFrames
  | sendsFinal _ sends =>
      cases sends <;> simp at inFrames
  | closes _ executed =>
      rw [(doClose_next executed).2] at inFrames
      simp at inFrames
  | _ =>
      simp at inFrames

theorem failsAlone_preserved :
    machine.Preserves (fun _ _ => True)
      fun c stack => Receiving c stack ∧ FailsAlone c stack := by
  refine preserves_of_deeds ?_ ?_ ?_
  · intro cause below c next frames _ fits receiving alone deed
    exact alone.step receiving fits deed
  · intro callback rest c alone req error member
    obtain ⟨isOld, shape | shape⟩ := alone req error (List.mem_cons_of_mem _ member)
    · cases shape
    · cases shape
  · intro _ stack c exception _ _ _ alone req error member
    exact alone req error member

/-! ## Every run -/

theorem AnswersInTime.endsReceived
    {config : Config}
    {label : Label}
    (inTime : AnswersInTime config label) :
    EndsReceived config label := by
  obtain ⟨c, stack, fault⟩ := config
  cases label with
  | tick =>
      cases stack with
      | nil =>
          trivial
      | cons frame below =>
          cases frame with
          | requestError req error =>
              exact ⟨inTime.1, inTime.2.1⟩
          | _ =>
              trivial
  | _ =>
      trivial

theorem failing_preserved (before : ServerConnection) (req : Nat) :
    machine.Preserves AnswersInTime fun c stack =>
      (Receiving c stack ∧ Progressing c stack) ∧
        Failing before req c stack ∧
          (c.Closed ∨
            req ∈ before.requests ∧ Lapsing before.requests req c stack) := by
  have step :
      ∀ (cause : Cause) {below frames : List Frame} {c next : ServerConnection}
        {may : Event → Bool},
        Progressing c (cause.stack ++ below) →
        cause.Fits below →
        AnswersInTime ⟨c, cause.stack ++ below, none⟩ cause.label →
        (∀ callback, cause.stack ≠ [.fire callback]) →
        Grows may c.trace next.trace →
        Deed c cause next frames →
        Failing before req c (cause.stack ++ below) ∧
          (c.Closed ∨
            req ∈ before.requests ∧
              Lapsing before.requests req c (cause.stack ++ below)) →
        Failing before req next (frames ++ below) ∧
          (next.Closed ∨
            req ∈ before.requests ∧
              Lapsing before.requests req next (frames ++ below)) := by
    rintro cause below frames c next may progress fits permitted notFire grows deed
      ⟨failing, lapsing⟩
    refine ⟨failing.step permitted deed, ?_⟩
    rcases lapsing with closed | ⟨inDue, lapsing⟩
    · exact Or.inl (closed.grows grows)
    · rcases progress with closed | isOpen
      · exact Or.inl (closed.grows grows)
      · exact (lapsing.step failing inDue isOpen.flow fits permitted grows notFire
          deed).imp_right fun goesOn => ⟨inDue, goesOn⟩
  apply preserves_of
  · rintro frame rest c next frames running permitted ⟨known, failing, lapsing⟩ executed
    refine ⟨progress_preserved.tick frame rest c next frames running
      permitted.endsReceived known executed, ?_⟩
    cases frame with
    | fire callback =>
        cases executed
        have fired : Failing before req (c.emit (.fired callback))
            ([.callback callback] ++ rest) :=
          failing.quiet [.fire callback] (.emit c rfl) (by simp [isReader]) (by simp)
        exact ⟨fired, lapsing.imp (fun closed => by simp [closed])
          (And.imp_right Lapsing.fires)⟩
    | _ =>
        exact step (.frame _) known.2 running permitted (by simp [Cause.stack])
          (code_emits executed) (code_deed executed) ⟨failing, lapsing⟩
  · rintro callback rest c ⟨known, failing, lapsing⟩
    have popped : Failing before req c ([] ++ rest) :=
      failing.quiet [.callback callback] (.refl c) (by simp) (by simp)
    refine ⟨progress_preserved.ret (.callback callback) rest c rfl known, popped,
      lapsing.imp_right (And.imp_right fun lapsing => ?_)⟩
    exact Lapsing.quiet [.callback callback] [] lapsing (.refl c) rfl (by simp) (by simp)
      fun waits => ⟨waits.calm, (waits.atBoundary rfl).2⟩
  · rintro input stack c next frames boundary permitted ⟨known, failing, lapsing⟩ accepted
    refine ⟨progress_preserved.input input stack c next frames boundary
      permitted.endsReceived known accepted, ?_⟩
    exact step (.input input) known.2
      ⟨boundary, fun event => accept_event event accepted⟩ permitted (by simp [Cause.stack])
      (accept_emits accepted) (accept_deed accepted) ⟨failing, lapsing⟩
  · rintro stack c exception boundary ⟨known, failing, lapsing⟩
    have unheaded : Unheaded c (c.emit (.threw exception)) := .emit c rfl
    have grows :
        Grows (fun _ => true) c.trace (c.emit (.threw exception)).trace :=
      Grows.snoc c.trace rfl
    have kept : Failing before req (c.emit (.threw exception)) ([] ++ stack) :=
      failing.quiet [] unheaded (by simp) (by simp)
    refine ⟨⟨known.1.threw boundary, known.2.threw boundary exception⟩, kept, ?_⟩
    refine lapsing.imp (fun closed => closed.grows grows) (And.imp_right fun lapsing => ?_)
    refine Lapsing.quiet [] [] lapsing unheaded rfl (by simp) (by simp) fun waits => ?_
    obtain ⟨free, reported⟩ := waits.atBoundary boundary
    exact ⟨free, reported.grows grows⟩

/-- What holds of the connection and its stack when `request_error` is called. -/
theorem failing_reports
    {before next : ServerConnection}
    {req : Nat}
    {error : ErrorCode}
    {below frames : List Frame}
    (alone : FailsAlone before (.requestError req error :: below))
    (progress : Progressing before (.requestError req error :: below))
    (permitted : before.FailsInTime req)
    (executed : before.requestError req error = .next next frames) :
    Failing before req next (frames ++ below) ∧
      (next.Closed ∨
        req ∈ before.requests ∧
          Lapsing before.requests req next (frames ++ below)) := by
  obtain ⟨isOld, shape⟩ := alone req error List.mem_cons_self
  have free : below = [] ∨ below = [.readIgnore] := by
    rcases shape with shape | shape <;> simp_all
  have noneHeld : held below = [] := by
    rcases free with rfl | rfl <;> rfl
  have ignored := Unheaded.readIgnore before
  have grows :
      Grows (fun _ => true) before.trace before.readIgnore.trace :=
    Grows.snoc before.trace rfl
  cases executed
  refine ⟨⟨isOld, ?_, ?_, rfl, Or.inl (by simp), [], ?_, by simp⟩, ?_⟩
  · simp [Silent, canRead, ServerConnection.readIgnore]
  · rcases free with rfl | rfl <;> simp [isReader]
  · simpa using ignored.heads
  · rcases progress with closed | isOpen
    · exact Or.inl (closed.grows grows)
    · obtain ⟨last, _⟩ := isOpen.flow.failed req error List.mem_cons_self
      have inDue : req ∈ before.requests := List.mem_of_getLast? last
      refine Or.inr ⟨inDue, ?_⟩
      by_cases started : before.Started req
      · refine .ends (permitted.2.2 started) ?_
        cases requests : before.requests with
        | nil =>
            simp [requests] at inDue
        | cons front rest =>
            exact Or.inr ⟨front, by simp, Or.inr ⟨noneHeld, by simp [readIgnore, requests]⟩⟩
      · obtain ⟨earlier, requests⟩ := List.getLast?_eq_some_iff.mp last
        refine .waits
          { noneHeld := noneHeld
            unwritten := not_started_of_unheaded ignored started
            reported := Or.inr ⟨_, rfl, ?_⟩
            place := ⟨earlier, [], requests, fun other member => by simp [requests, member]⟩
            calm := ?_, finishing := by simp }
        · split <;> simp [isReport]
        · rcases free with rfl | rfl <;> simp

/--
In every run in which the responses to failed requests come in time, each request error
ends the connection.
-/
theorem closesAfterErrors_of_answersInTime
    (config : ConnectionConfig)
    (labels : List Label)
    (final : Config)
    (ran : run? config labels = some final)
    (inTime : machine.Guarded AnswersInTime (start config) labels) :
    ClosesAfterErrors config labels final := by
  intro first rest before req error isRun reached isNext
  subst isRun
  have known : Receiving before.state before.stack ∧ Progressing before.state before.stack :=
    progress_preserved.run ⟨receiving_initial config, Or.inr (open_initial config)⟩
      (inTime.front.imp fun _ _ => AnswersInTime.endsReceived) reached
  have alone : FailsAlone before.state before.stack :=
    (failsAlone_preserved.run
      ⟨receiving_initial config, fun _ _ member => by simp [start] at member⟩
      (CallMachine.Machine.guarded_true machine _ first) reached).2
  have onwards : machine.run? before rest = some final := by
    rw [run?, CallMachine.Machine.run?_append, ← run?, reached] at ran
    exact ran
  have guarded := inTime.back reached
  cases rest with
  | nil =>
      obtain rfl : before = final := Option.some.inj onwards
      refine ⟨fun later response grown member => ?_, fun atRest => ?_⟩
      · obtain rfl : later = [] := by simpa using grown
        cases member
      · simp [atRest] at isNext
  | cons label others =>
      unfold CallMachine.Machine.run? at onwards
      split at onwards
      · cases onwards
      · rename_i next stepped
        have follows :
            (Receiving next.state next.stack ∧ Progressing next.state next.stack) ∧
              Failing before.state req next.state next.stack ∧
                (next.state.Closed ∨
                  req ∈ before.state.requests ∧
                    Lapsing before.state.requests req next.state next.stack) := by
          refine ⟨progress_preserved.step before label next known
            guarded.1.endsReceived stepped, ?_⟩
          obtain ⟨c, stack, fault⟩ := before
          cases CallMachine.Machine.steps_of_step? stepped with
          | @tick frame below shape running =>
              cases shape
              obtain rfl : frame = .requestError req error := by simpa using isNext
              exact failing_reports alone known.2 guarded.1 rfl
          | ret shape runs | throw shape runs =>
              cases shape
              obtain rfl := Option.some.inj isNext
              cases runs
          | input boundary _ =>
              obtain ⟨callback, same⟩ := callback_of_boundary boundary isNext
              cases same
        obtain ⟨⟨_, progress⟩, failing, lapsing⟩ :=
          (failing_preserved before.state req).run follows (guarded.2 next stepped) onwards
        refine ⟨fun later response grown member => ?_, fun atRest answered => ?_⟩
        · obtain ⟨more, heads, close⟩ := failing.written
          refine close response ?_
          have shown : final.state.heads =
              before.state.heads ++ (later.filterMap piece?).filterMap head? := by
            simp [ServerConnection.heads, ServerConnection.written, grown]
          rw [heads, List.append_cancel_left_eq] at shown
          rw [shown, List.mem_filterMap]
          exact ⟨.head req response, List.mem_filterMap.mpr ⟨_, member, rfl⟩, rfl⟩
        · rcases lapsing with closed | ⟨inDue, lapsing⟩
          · exact closed
          · rcases progress with closed | isOpen
            · exact closed
            · rw [atRest] at lapsing isOpen
              exact absurd isOpen.unstuck
                (lapsing.not_unstuck inDue failing.silent answered)

/-! ## Runs -/

/--
A request and a malformed one arrive together.  The error is answered in `error_event`,
before the first request is.
-/
def answeredClosing : List Label :=
  [.input (.onRead [.done {}, .error (.foreign 0)]),
    .tick, .tick, .ret, .tick, .tick, .ret, .tick, .ret, .tick, .tick, .tick, .tick,
    .input (.respond 1 {}), .ret, .tick,
    .input (.respond 0 {}),
    .tick, .tick, .tick, .ret, .tick, .tick, .tick, .tick, .ret, .tick, .tick]

theorem closesAfterErrors_answeredClosing :
    ∃ final,
      run? {} answeredClosing = some final ∧
        ClosesAfterErrors {} answeredClosing final ∧
        final.state.heads.map (fun head => (head.1, head.2.keepAlive)) =
          [(0, true), (1, false)] :=
  ⟨_, rfl, closesAfterErrors_of_answersInTime {} answeredClosing _ rfl (by decide),
    rfl⟩

/-- A malformed request is answered in `error_event`. -/
def answeredInError : List Label :=
  [.input (.onRead [.error (.foreign 0)]),
    .tick, .tick, .tick,
    .input (.respond 0 {}), .tick, .tick, .tick, .ret, .tick, .ret, .tick]

/-- The head is written before keep-alive is turned off, and the connection stays open. -/
theorem answeredInError_stays_open :
    ∃ final,
      run? {} answeredInError = some final ∧
        ¬ ClosesAfterErrors {} answeredInError final ∧
        final.stack = [] ∧
        final.state.requests = [] ∧
        ¬ final.state.Closed ∧
        final.state.Silent := by
  refine ⟨_, rfl, fun closes => ?_, rfl, rfl, by decide, by decide⟩
  have closed :=
    (closes (answeredInError.take 2) (answeredInError.drop 2) _ 0 (.foreign 0) rfl rfl
      rfl).ended rfl (by decide)
  revert closed
  decide

end UniEventHttp.ServerConnection
