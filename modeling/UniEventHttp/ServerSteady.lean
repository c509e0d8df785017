import UniEventHttp.ServerEvents

namespace UniEventHttp.ServerConnection

/-!
# What no step takes back

A response that has been given stays given, and one that has been given to its
end stays so.  Most code also leaves the deque, the parser and the requests that
wait for their end as they are.
-/

/-- `finish_request` waits for the end of the request. -/
def Waiting (c : ServerConnection) (req : Nat) : Prop :=
  (c.store req).finishOnReceive = true

instance (c : ServerConnection) (req : Nat) : Decidable (c.Waiting req) :=
  inferInstanceAs (Decidable (_ = _))

/-- A response that is given to its end is given. -/
theorem Completed.responded
    {c : ServerConnection}
    {req : Nat}
    (completed : c.Completed req) :
    c.Responded req := by
  unfold Completed ServerRequest.responseCompleted at completed
  unfold Responded
  split at completed
  · cases completed
  · rename_i response stored
    simp [stored]

/-- Only the first request of the deque is its head. -/
theorem not_head_of_rest
    {c : ServerConnection}
    {front req : Nat}
    {rest : List Nat}
    (sorted : c.requests.Pairwise (· < ·))
    (shape : c.requests = front :: rest)
    (member : req ∈ rest) :
    c.requests.head? ≠ some req := by
  intro isHead
  rw [shape, List.pairwise_cons] at sorted
  have above := sorted.1 req member
  simp [shape] at isHead
  omega

/-- The second state has the deque of the first and takes no response back. -/
structure Steady (c next : ServerConnection) : Prop extends Kept c next where
  responded : ∀ req, c.Responded req → next.Responded req
  completed : ∀ req, c.Completed req → next.Completed req
  waiting : ∀ req, next.Waiting req ↔ c.Waiting req

namespace Steady

theorem refl (c : ServerConnection) : Steady c c :=
  ⟨Kept.refl c, fun _ => id, fun _ => id, fun _ => Iff.rfl⟩

theorem trans
    {first second third : ServerConnection}
    (one : Steady first second)
    (two : Steady second third) :
    Steady first third where
  toKept := one.toKept.trans two.toKept
  responded req given := two.responded req (one.responded req given)
  completed req given := two.completed req (one.completed req given)
  waiting req := (two.waiting req).trans (one.waiting req)

/-- The store stays as it is. -/
theorem of_store
    {c next : ServerConnection}
    (kept : Kept c next)
    (store : next.store = c.store) :
    Steady c next where
  toKept := kept
  responded req := by simp [Responded, store]
  completed req := by simp [Completed, store]
  waiting req := by simp [Waiting, store]

theorem emit (c : ServerConnection) (event : Event) :
    Steady c (c.emit event) :=
  of_store (Kept.emit c event) rfl

theorem write (c : ServerConnection) (piece : Piece) :
    Steady c (c.write piece) :=
  of_store (Kept.write c piece) rfl

theorem readIgnore (c : ServerConnection) : Steady c c.readIgnore :=
  of_store (Kept.readIgnore c) rfl

theorem of_plain
    {c next : ServerConnection}
    (plain : Plain c next) :
    Steady c next :=
  of_store (Kept.of_plain plain) plain.store

/-- `upgrade` hands the stream over. -/
theorem handOver (c : ServerConnection) (req : Nat) :
    Steady c
      (({ c with
        stream := { c.stream with listener := false }
        idleTimer := none } : ServerConnection).emit (.upgraded req)) :=
  (of_plain (Plain.setStream c _ none fun _ => by simp [Silent, canRead])).trans
    (emit _ _)

theorem writeChunks
    (c : ServerConnection)
    (req : Nat)
    (chunks : List Data) :
    Steady c (c.writeChunks req chunks) :=
  of_store (Kept.writeChunks c req chunks) (store_writeChunks c req chunks)

theorem startClosing (c : ServerConnection) (req : Nat) :
    Steady c (c.startClosing req) :=
  of_store (Kept.startClosing c req) (store_startClosing c req)

/-- A response is stored that is not behind the one it replaces. -/
theorem setResponse
    (c : ServerConnection)
    (req : Nat)
    (response : ServerResponse)
    (completed : c.Completed req → response.completed = true) :
    Steady c (c.setResponse req response) where
  toKept := Kept.setResponse c req response
  responded other := by
    by_cases same : other = req <;> simp [Responded, same]
  completed other given := by
    by_cases same : other = req
    · subst other
      simp [Completed, ServerRequest.responseCompleted, completed given]
    · simpa [Completed, same] using given
  waiting other := by
    by_cases same : other = req <;> simp [Waiting, same]

theorem takeResponse
    (c : ServerConnection)
    (req : Nat)
    (response : ServerResponse)
    (unanswered : ¬ c.Responded req) :
    Steady c (c.takeResponse req response) := by
  have flags :
      ∀ processed stopping,
        Steady c { c with
          requestsProcessed := processed, stopping := stopping } :=
    fun _ _ =>
      of_store ⟨rfl, rfl, rfl, fun _ => Iff.rfl, fun _ => Iff.rfl, id⟩ rfl
  refine ((flags _ _).trans (setResponse _ req _ ?_)).trans (emit _ _)
  intro completed
  exact (unanswered (Completed.responded completed)).elim

theorem writeHead
    (c : ServerConnection)
    (req : Nat)
    {given response : ServerResponse}
    (stored : (c.store req).response = some given)
    (same : response.completed = given.completed) :
    Steady c (c.writeHead req response) := by
  refine (setResponse c req response ?_).trans (write _ _)
  intro completed
  simpa [Completed, ServerRequest.responseCompleted, stored, same]
    using completed

end Steady

theorem completed_prepared (c : ServerConnection) (given : ServerResponse) :
    (c.prepared given).withoutTmpChunks.completed = given.completed :=
  completed_withoutTmpChunks _

/-- The head of the first response is written. -/
theorem Steady.writesHead
    {c middle : ServerConnection}
    {req : Nat}
    {rest : List Nat}
    {given : ServerResponse}
    (stored : (c.store req).response = some given)
    (writesHead :
      WritesHead c req rest (c.prepared given).withoutTmpChunks middle) :
    Steady c middle := by
  have headed := Steady.writeHead c req stored (completed_prepared c given)
  cases writesHead with
  | keepAlive _ _ =>
      exact headed
  | closing _ =>
      exact headed.trans (Steady.startClosing _ req)

/-! ## The code between callbacks -/

theorem steady_respond
    {c next : ServerConnection}
    {req : Nat}
    {response : ServerResponse}
    {frames : List Frame}
    (executed : c.respond req response = .next next frames) :
    Steady c next := by
  obtain ⟨_, unanswered, rfl, _⟩ := respond_next executed
  exact Steady.takeResponse c req response unanswered

theorem steady_requestErrorReturn
    {c next : ServerConnection}
    {req : Nat}
    {frames : List Frame}
    (executed : c.requestErrorReturn req = .next next frames) :
    Steady c next := by
  unfold requestErrorReturn at executed
  split at executed
  · exact steady_respond executed
  · rename_i response stored
    split at executed
    · cases executed
      apply Steady.setResponse
      intro completed
      simpa [Completed, ServerRequest.responseCompleted, stored]
        using completed
    · cases executed
      exact Steady.refl _

theorem steady_finishReturn
    {c next : ServerConnection}
    {frames : List Frame}
    (executed : c.finishReturn = .next next frames) :
    Steady c next := by
  rcases finishReturn_plain executed with plain | ⟨_, _, rfl, _⟩
  · exact Steady.of_plain plain.1
  · exact Steady.refl _

/--
A plain frame, or the code that goes on with the first request, whose response
was not complete.
-/
def Pushed (c : ServerConnection) (frame : Frame) : Prop :=
  isPlainFrame frame = true ∨
    (frame = .writeNextResponse ∨ frame = .finishRequest) ∧
      ∃ front, c.requests.head? = some front ∧ ¬ c.Completed front

/-- Plain code takes nothing back. -/
theorem plain_next
    {frame : Frame}
    {c next : ServerConnection}
    {frames : List Frame}
    (runs : runsPlain frame = true)
    (executed : code frame c = .next next frames) :
    Steady c next ∧ ∀ other ∈ frames, Pushed c other := by
  have plain := plain_code c runs
  rw [executed] at plain
  exact ⟨Steady.of_plain plain.1,
    fun other member => Or.inl (plain.2 other member)⟩

/-- The frames whose code changes the deque or asks a request to wait. -/
def movesRequests : Frame → Bool
  | .onRead _ => true
  | .writeNextResponse => true
  | .finishRequest => true
  | .dropRequests _ _ => true
  | _ => false

theorem steady_code
    {frame : Frame}
    {c next : ServerConnection}
    {frames : List Frame}
    (stays : movesRequests frame = false)
    (executed : code frame c = .next next frames) :
    Steady c next := by
  cases frame with
  | routed req done buf =>
      exact Steady.of_plain
        (reader_next (Or.inl ⟨req, done, buf, rfl⟩) executed).1
  | received req done buf =>
      exact Steady.of_plain
        (reader_next (Or.inr ⟨req, done, buf, rfl⟩) executed).1
  | requestError req error =>
      cases executed
      exact Steady.readIgnore c
  | requestErrorReturn req =>
      exact steady_requestErrorReturn executed
  | finishReturn =>
      exact steady_finishReturn executed
  | callback _ | fire _ | readIgnore | dropNotify _ _ | upgradeReturn =>
      exact (plain_next rfl executed).1
  | _ =>
      simp [movesRequests] at stays

/-! ## The entry points -/

theorem pushed_requestErrorReturn
    {c next : ServerConnection}
    {req : Nat}
    {frames : List Frame}
    (executed : c.requestErrorReturn req = .next next frames) :
    ∀ frame ∈ frames, Pushed c frame := by
  unfold requestErrorReturn at executed
  split at executed
  · obtain ⟨_, unanswered, _, front, rest, shape, ⟨rfl, rfl⟩ | ⟨_, rfl⟩⟩ :=
      respond_next executed
    · intro frame member
      exact Or.inr ⟨Or.inl (by simpa using member), front, by simp [shape],
        fun completed => unanswered completed.responded⟩
    · simp
  · split at executed <;> cases executed <;> simp

/-- What a call of the application or an event of the loop does. -/
def Calls (c : ServerConnection) : Step → Prop
  | .next next frames => Steady c next ∧ ∀ frame ∈ frames, Pushed c frame
  | _ => True

theorem Calls.of_plain
    {c : ServerConnection}
    {step : Step}
    (plain : PlainStep c step) :
    Calls c step := by
  cases step with
  | next next frames =>
      exact ⟨Steady.of_plain plain.1,
        fun frame member => Or.inl (plain.2 frame member)⟩
  | _ =>
      trivial

theorem calls_requestRespond
    (c : ServerConnection)
    (req : Nat)
    (response : ServerResponse) :
    Calls c (c.requestRespond req response) := by
  unfold requestRespond
  split
  · cases executed : c.respond req response with
    | next next frames =>
        refine ⟨steady_respond executed, ?_⟩
        obtain ⟨_, unanswered, _, front, rest, shape,
          ⟨rfl, rfl⟩ | ⟨_, rfl⟩⟩ := respond_next executed
        · intro frame member
          simp only [List.mem_singleton] at member
          exact Or.inr ⟨Or.inl member, front, by simp [shape],
            fun completed => unanswered completed.responded⟩
        · simp
    | _ =>
        trivial
  · exact ⟨Steady.refl c, by simp⟩

theorem calls_requestSendContinue
    (c : ServerConnection)
    (req : Nat) :
    Calls c (c.requestSendContinue req) := by
  unfold requestSendContinue
  split
  · unfold sendContinue
    split
    · trivial
    · dsimp only
      split
      · exact ⟨Steady.refl c, by simp⟩
      · split
        · exact ⟨Steady.refl c, by simp⟩
        · split
          · trivial
          · exact ⟨Steady.write c _, by simp⟩
  · exact ⟨Steady.refl c, by simp⟩

theorem calls_sendChunk
    (c : ServerConnection)
    (req : Nat)
    (data : Data) :
    Calls c
      (c.responseSend req fun response => c.sendChunk req response data) := by
  cases executed :
      c.responseSend req fun response => c.sendChunk req response data with
  | next next frames =>
      rcases responseSend_next executed with
        ⟨rfl, rfl⟩ | ⟨response, stored, accepts, sent⟩
      · exact ⟨Steady.refl _, by simp⟩
      · have gave := Steady.emit c (.gaveChunk req data)
        simp only [sendChunk] at sent
        split at sent
        · cases sent
        · split at sent
          · cases sent
            exact ⟨gave, by simp⟩
          · split at sent <;> cases sent
            · exact ⟨gave.trans (Steady.write _ _), by simp⟩
            · refine ⟨gave.trans (Steady.setResponse _ req _ ?_), by simp⟩
              exact fun completed => (accepts.2.2 completed).elim
  | _ =>
      trivial

theorem calls_sendFinalChunk
    (c : ServerConnection)
    (req : Nat)
    (data : Data) :
    Calls c
      (c.responseSend req fun response =>
        c.sendFinalChunk req response data) := by
  cases executed :
      c.responseSend req fun response => c.sendFinalChunk req response data with
  | next next frames =>
      rcases responseSend_next executed with
        ⟨rfl, rfl⟩ | ⟨response, stored, accepts, sent⟩
      · exact ⟨Steady.refl _, by simp⟩
      · have ended :
            Steady c
              ((c.emit (.gaveFinalChunk req data)).setResponse req
                { response with completed := true }) :=
          (Steady.emit c _).trans (Steady.setResponse _ req _ fun _ => rfl)
        simp only [sendFinalChunk] at sent
        split at sent
        · cases sent
        · rename_i front rest shape
          split at sent <;> cases sent
          · rename_i isFront
            refine ⟨ended.trans (Steady.write _ _), ?_⟩
            intro frame member
            simp only [List.mem_singleton] at member
            have sameDeque : c.requests = front :: rest := shape
            exact Or.inr ⟨Or.inr member, front, by simp [sameDeque],
              isFront ▸ accepts.2.2⟩
          · exact ⟨ended, by simp⟩
  | _ =>
      trivial

theorem calls_gracefulStop (c : ServerConnection) :
    Calls c c.gracefulStop := by
  unfold gracefulStop
  split
  · exact Calls.of_plain (plain_doClose c _ _)
  · exact
      ⟨Steady.of_store
        ⟨rfl, rfl, rfl, fun _ => Iff.rfl, fun _ => Iff.rfl, id⟩ rfl, by simp⟩

/-- Calls that neither read nor upgrade take nothing back. -/
theorem calls_accept
    {input : Input}
    {top : Option Frame}
    {c : ServerConnection}
    {step : Step}
    (accepted : accept input top c = some step)
    (notUpgrade : ∀ req, input ≠ .upgrade req)
    (notRead : ∀ buf, input ≠ .onRead buf)
    (notReadError : ∀ error, input ≠ .onReadError error) :
    Calls c step := by
  cases input with
  | respond req response =>
      simp only [accept] at accepted
      split at accepted <;> cases accepted
      exact calls_requestRespond c req response
  | sendContinue req =>
      cases accepted
      exact calls_requestSendContinue c req
  | sendChunk req data =>
      cases accepted
      exact calls_sendChunk c req data
  | sendFinalChunk req data =>
      cases accepted
      exact calls_sendFinalChunk c req data
  | gracefulStop =>
      cases accepted
      exact calls_gracefulStop c
  | enablePartial req =>
      cases accepted
      refine ⟨?_, by simp⟩
      refine
        { toKept := Kept.setRequest c req _ rfl rfl
          responded := ?_, completed := ?_, waiting := ?_ } <;>
        intro other <;> by_cases same : other = req <;>
        simp [Responded, Completed, ServerRequest.responseCompleted,
          Waiting, same]
  | upgrade req =>
      exact (notUpgrade req rfl).elim
  | onRead buf =>
      exact (notRead buf rfl).elim
  | onReadError error =>
      exact (notReadError error rfl).elim
  | _ =>
      exact Calls.of_plain (plain_accept rfl accepted)

end UniEventHttp.ServerConnection
