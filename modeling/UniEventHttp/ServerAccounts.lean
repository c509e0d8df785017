import UniEventHttp.ServerDeeds
import UniEventHttp.ServerSteady

namespace UniEventHttp.ServerConnection

/-!
# No request is lost

Whatever the application does, a request that has joined the deque is still in it,
or it is held by a suspended `write_next_response`, or `cleanup_request` has taken
it out, once for each time that it has joined; and `finish_event` is fired once for
each time that it has been taken out.
-/

/-! ## The accounts -/

/-- The observations that the accounts are kept of. -/
def isBooked : Event → Bool
  | .appended _ => true
  | .cleanedUp _ => true
  | .fired (.finishEvent _) => true
  | _ => false

/-- The code makes no entry in the accounts. -/
def Unbooked (c next : ServerConnection) : Prop :=
  Grows (fun event => !isBooked event) c.trace next.trace

/-- How often a request has joined and left the deque, and its finish event fired. -/
structure Balanced (c : ServerConnection) (stack : List Frame) : Prop where
  conserved :
    ∀ req,
      c.trace.count (.appended req) =
        c.trace.count (.cleanedUp req) + c.requests.count req +
          (held stack).count req
  told :
    ∀ req,
      c.trace.count (.cleanedUp req) =
        c.trace.count (.fired (.finishEvent req)) +
          stack.count (.fire (.finishEvent req))

section Unbooked

variable {c next : ServerConnection}

theorem Unbooked.refl (c : ServerConnection) : Unbooked c c :=
  Grows.refl c.trace

theorem Unbooked.trans
    {first second third : ServerConnection}
    (one : Unbooked first second)
    (two : Unbooked second third) :
    Unbooked first third :=
  Grows.trans one two

theorem Unbooked.emit
    (c : ServerConnection)
    {event : Event}
    (unbooked : isBooked event = false) :
    Unbooked c (c.emit event) :=
  Grows.snoc c.trace (by simp [unbooked])

theorem Unbooked.write (c : ServerConnection) (piece : Piece) :
    Unbooked c (c.write piece) :=
  Grows.snoc c.trace rfl

/-- No entry is made for a booked observation. -/
theorem Unbooked.count
    (unbooked : Unbooked c next)
    {event : Event}
    (booked : isBooked event = true) :
    next.trace.count event = c.trace.count event := by
  obtain ⟨events, shape, allowed⟩ := unbooked
  have absent : events.count event = 0 := by
    rw [List.count_eq_zero]
    intro member
    simpa [booked] using allowed event member
  rw [shape, List.count_append, absent, Nat.add_zero]

theorem Unbooked.writeHead
    (c : ServerConnection)
    (req : Nat)
    (response : ServerResponse) :
    Unbooked c (c.writeHead req response) :=
  Unbooked.write (c.setResponse req response) _

theorem Unbooked.writeChunks
    (c : ServerConnection)
    (req : Nat)
    (chunks : List Data) :
    Unbooked c (c.writeChunks req chunks) :=
  writeChunks_grows c req (fun _ => rfl) chunks

theorem Unbooked.startClosing (c : ServerConnection) (req : Nat) :
    Unbooked c (c.startClosing req) :=
  startClosing_grows rfl c req

theorem Unbooked.writesHead
    {req : Nat}
    {rest : List Nat}
    {response : ServerResponse}
    (writes : WritesHead c req rest response next) :
    Unbooked c next := by
  cases writes with
  | keepAlive _ _ =>
      exact writeHead c req response
  | closing _ =>
      exact (writeHead c req response).trans (startClosing _ req)

theorem Unbooked.idles (idles : Idles c next) : Unbooked c next := by
  cases idles <;> exact refl c

theorem Unbooked.closes
    {middle : ServerConnection}
    {cause : Cause}
    {error : Option ErrorCode}
    {soft : Bool}
    {frames : List Frame}
    (closes : Closes c cause middle error soft)
    (executed : middle.doClose error soft = .next next frames) :
    Unbooked c next := by
  have reached : middle.trace = c.trace := by
    cases closes <;> rfl
  exact closes_grows reached rfl executed

theorem Unbooked.sendsChunk
    {req : Nat}
    {data : Data}
    (sends : SendsChunk c req data next) :
    Unbooked c next := by
  have gave : Unbooked c (c.emit (.gaveChunk req data)) := emit c rfl
  cases sends with
  | empty _ =>
      exact gave
  | writes _ _ =>
      exact gave.trans (write _ _)
  | keeps _ =>
      exact gave

theorem Unbooked.sendsFinal
    {req : Nat}
    {data : Data}
    {frames : List Frame}
    (sends : SendsFinal c req data next frames) :
    Unbooked c next := by
  have gave : Unbooked c (c.emit (.gaveFinalChunk req data)) := emit c rfl
  cases sends with
  | writes _ _ =>
      exact gave.trans (write _ _)
  | keeps _ =>
      exact gave

end Unbooked

/-! ## The steps -/

section Steps

variable {c next : ServerConnection}
variable {stack frames below : List Frame}

/-- A frame that neither holds a request nor fires a finish event. -/
def isUnbooked : Frame → Bool
  | .fire (.finishEvent _) => false
  | .dropRequests _ (.writeNextResponse _ _) => false
  | _ => true

theorem held_unbooked
    (unbooked : ∀ frame ∈ frames, isUnbooked frame = true)
    (below : List Frame) :
    held (frames ++ below) = held below := by
  have nothing : held frames = [] := by
    unfold held
    rw [List.filterMap_eq_nil_iff]
    intro frame member
    have isPlain := unbooked frame member
    unfold held?
    split
    · cases isPlain
    · rfl
  rw [held_append, nothing, List.nil_append]

theorem count_fire_unbooked
    (unbooked : ∀ frame ∈ frames, isUnbooked frame = true)
    (below : List Frame)
    (req : Nat) :
    (frames ++ below).count (.fire (.finishEvent req)) =
      below.count (.fire (.finishEvent req)) := by
  have absent : frames.count (.fire (.finishEvent req)) = 0 := by
    rw [List.count_eq_zero]
    intro member
    cases unbooked _ member
  rw [List.count_append, absent, Nat.zero_add]

/-- Code that makes no entry, on frames that have none. -/
theorem Balanced.unbooked
    {cause : Cause}
    (balanced : Balanced c (cause.stack ++ below))
    (unbooked : Unbooked c next)
    (requests : next.requests = c.requests)
    (top : ∀ frame ∈ cause.stack, isUnbooked frame = true)
    (called : ∀ frame ∈ frames, isUnbooked frame = true) :
    Balanced next (frames ++ below) := by
  refine ⟨fun req => ?_, fun req => ?_⟩
  · have before := balanced.conserved req
    rw [held_unbooked top] at before
    rw [unbooked.count rfl, unbooked.count rfl, requests,
      held_unbooked called]
    exact before
  · have before := balanced.told req
    rw [count_fire_unbooked top] at before
    rw [unbooked.count rfl, unbooked.count rfl, count_fire_unbooked called]
    exact before

/-- Requests join the deque, each with an entry. -/
structure Enters (c next : ServerConnection) (joined : List Nat) : Prop where
  requests : next.requests = c.requests ++ joined
  appended :
    ∀ req,
      next.trace.count (.appended req) =
        c.trace.count (.appended req) + joined.count req
  cleanedUp :
    ∀ req, next.trace.count (.cleanedUp req) = c.trace.count (.cleanedUp req)
  finished :
    ∀ req,
      next.trace.count (.fired (.finishEvent req)) =
        c.trace.count (.fired (.finishEvent req))

theorem Parses.enters
    {result : Parsed}
    {req : Nat}
    (parses : Parses c result next req) :
    Enters c next (if c.requests.getLast? = some req then [] else [req]) := by
  have requests := parses.requests
  obtain ⟨_, _, ⟨_, _, _, trace⟩ | ⟨_, _, _, _, trace⟩⟩ := parses.origin <;>
    split at requests <;> rename_i isLast <;>
    simp only [isLast, ↓reduceIte] at trace ⊢ <;>
    constructor <;> simp [trace, requests, List.count_cons]

theorem ReadFails.enters
    {req : Nat}
    (fails : ReadFails c next req) :
    ∃ joined, Enters c next joined := by
  rcases fails.origin with
    ⟨_, _, requests, _, trace, _⟩ | ⟨_, _, requests, _, trace, _⟩
  · exact ⟨[], by constructor <;> simp [trace, requests]⟩
  · exact ⟨[req], by
      constructor <;> simp [trace, requests, List.count_cons]⟩

/-- Requests join, on frames that have no entry. -/
theorem Balanced.enters
    {cause : Cause}
    {joined : List Nat}
    (balanced : Balanced c (cause.stack ++ below))
    (enters : Enters c next joined)
    (top : ∀ frame ∈ cause.stack, isUnbooked frame = true)
    (called : ∀ frame ∈ frames, isUnbooked frame = true) :
    Balanced next (frames ++ below) := by
  refine ⟨fun req => ?_, fun req => ?_⟩
  · have before := balanced.conserved req
    rw [held_unbooked top] at before
    rw [enters.appended, enters.cleanedUp, enters.requests, List.count_append,
      held_unbooked called]
    omega
  · have before := balanced.told req
    rw [count_fire_unbooked top] at before
    rw [enters.cleanedUp, enters.finished, count_fire_unbooked called]
    exact before

/-- The first request leaves, and its finish event is to be fired. -/
theorem Balanced.cleansUp
    {cause : Cause}
    {middle : ServerConnection}
    {req : Nat}
    {rest : List Nat}
    (balanced : Balanced c (cause.stack ++ below))
    (unbooked : Unbooked c middle)
    (shape : c.requests = req :: rest)
    (top :
      ∀ other, (cause.stack).count (.fire (.finishEvent other)) = 0)
    (called :
      ∀ other, frames.count (.fire (.finishEvent other)) = 0)
    (sameHeld : held frames = held cause.stack) :
    Balanced (middle.cleanupRequest req rest)
      (.fire (.finishEvent req) :: frames ++ below) := by
  have entry :
      (middle.cleanupRequest req rest).trace =
        middle.trace ++ [.cleanedUp req] :=
    rfl
  refine ⟨fun other => ?_, fun other => ?_⟩
  · have before := balanced.conserved other
    rw [held_append, List.count_append, shape] at before
    have heldNow :
        held (.fire (.finishEvent req) :: frames ++ below) =
          held cause.stack ++ held below := by
      rw [← sameHeld, ← held_append]
      rfl
    rw [entry, heldNow, List.count_append]
    simp only [List.count_append, List.count_cons, List.count_nil,
      unbooked.count (show isBooked (.appended other) = true from rfl),
      unbooked.count (show isBooked (.cleanedUp other) = true from rfl)]
      at before ⊢
    by_cases same : req = other <;>
      (simp_all [cleanupRequest, emit, setRequest]; try omega)
  · have before := balanced.told other
    rw [List.count_append, top] at before
    rw [entry]
    simp only [List.cons_append, List.count_append, List.count_cons,
      List.count_nil, called,
      unbooked.count (show isBooked (.cleanedUp other) = true from rfl),
      unbooked.count
        (show isBooked (.fired (.finishEvent other)) = true from rfl)]
    by_cases same : req = other <;> (simp_all; try omega)

/-- An observation without an entry. -/
theorem Balanced.emit
    {stack : List Frame}
    {event : Event}
    (balanced : Balanced c stack)
    (unbooked : isBooked event = false) :
    Balanced (c.emit event) stack := by
  have same := Unbooked.emit c unbooked
  refine ⟨fun req => ?_, fun req => ?_⟩
  · rw [same.count rfl, same.count rfl]
    exact balanced.conserved req
  · rw [same.count rfl, same.count rfl]
    exact balanced.told req

/-- `write_next_response` takes the first request out to drop the others. -/
theorem Balanced.holds
    {middle : ServerConnection}
    {req : Nat}
    {rest : List Nat}
    {error : Option ErrorCode}
    {tmpChunks : List Data}
    (balanced : Balanced c (.writeNextResponse :: below))
    (unbooked : Unbooked c middle)
    (shape : c.requests = req :: rest) :
    Balanced { middle with requests := rest }
      (.dropRequests error (.writeNextResponse req tmpChunks) :: below) := by
  refine ⟨fun other => ?_, fun other => ?_⟩
  · have before := balanced.conserved other
    have heldNow :
        held (.dropRequests error (.writeNextResponse req tmpChunks) ::
          below) = req :: held below :=
      rfl
    have heldBefore : held (.writeNextResponse :: below) = held below :=
      rfl
    rw [shape, heldBefore] at before
    rw [heldNow]
    simp only [List.count_cons,
      unbooked.count (show isBooked (.appended other) = true from rfl),
      unbooked.count (show isBooked (.cleanedUp other) = true from rfl)]
      at before ⊢
    omega
  · have before := balanced.told other
    simpa [List.count_cons,
      unbooked.count (show isBooked (.cleanedUp other) = true from rfl),
      unbooked.count
        (show isBooked (.fired (.finishEvent other)) = true from rfl)]
      using before

/-- The request that was held is back in the deque. -/
theorem Balanced.takesBack
    {req : Nat}
    {error : Option ErrorCode}
    {tmpChunks : List Data}
    (balanced :
      Balanced c
        (.dropRequests error (.writeNextResponse req tmpChunks) :: below))
    (unbooked : Unbooked c next)
    (empty : c.requests = [])
    (requests : next.requests = [req])
    (called : ∀ frame ∈ frames, isUnbooked frame = true) :
    Balanced next (frames ++ below) := by
  refine ⟨fun other => ?_, fun other => ?_⟩
  · have before := balanced.conserved other
    have heldBefore :
        held (.dropRequests error (.writeNextResponse req tmpChunks) ::
          below) = req :: held below :=
      rfl
    rw [empty, heldBefore] at before
    rw [unbooked.count rfl, unbooked.count rfl, requests,
      held_unbooked called]
    simp only [List.count_cons, List.count_nil] at before ⊢
    omega
  · have before := balanced.told other
    rw [unbooked.count rfl, unbooked.count rfl, count_fire_unbooked called]
    simpa [List.count_cons] using before

/-- An event is dispatched; the finish event is entered in the accounts. -/
theorem Balanced.fires
    {callback : Callback}
    (balanced : Balanced c (.fire callback :: below)) :
    Balanced (c.emit (.fired callback)) (.callback callback :: below) := by
  refine ⟨fun req => ?_, fun req => ?_⟩
  · have before := balanced.conserved req
    simp only [held, List.filterMap_cons, held?] at before ⊢
    simpa [ServerConnection.emit, List.count_append, List.count_cons]
      using before
  · have before := balanced.told req
    simp only [ServerConnection.emit, List.count_append, List.count_cons,
      List.count_nil] at before ⊢
    by_cases isFinish : callback = .finishEvent req
    · subst callback
      simp at before ⊢
      omega
    · simpa [isFinish] using before

/-- The frames that enter nothing, apart from the event that they fire. -/
theorem isUnbooked_of_suspends
    {frame : Frame}
    (notFire : ∀ callback, frame ≠ .fire callback)
    (free : suspends frame = false) :
    isUnbooked frame = true := by
  cases frame with
  | fire callback =>
      exact absurd rfl (notFire callback)
  | dropRequests error returns =>
      cases free
  | _ =>
      rfl

/-- No deed brings the accounts out of balance. -/
theorem Balanced.deed
    {cause : Cause}
    (balanced : Balanced c (cause.stack ++ below))
    (notFire : ∀ callback, cause ≠ .frame (.fire callback))
    (deed : Deed c cause next frames) :
    Balanced next (frames ++ below) := by
  have nothing : ∀ frame ∈ ([] : List Frame), isUnbooked frame = true := by
    simp
  cases deed with
  | fires callback =>
      exact absurd rfl (notFire callback)
  | rests free =>
      refine balanced.unbooked (.refl c) rfl ?_ nothing
      intro frame member
      refine isUnbooked_of_suspends ?_ (free frame member).1
      rintro callback rfl
      cases cause with
      | frame top =>
          exact notFire callback (by simpa [Cause.stack, eq_comm] using member)
      | input called =>
          cases member
  | dropped _ | takesUp _ _ _ _ | receives _ _ | marks _ | waits _ _ _
  | enables _ | stops _ =>
      exact balanced.unbooked (Unbooked.refl c) rfl
        (by simp [Cause.stack, isUnbooked]) (by simp [isUnbooked])
  | ignores | shutsDown _ =>
      exact balanced.unbooked (Unbooked.emit c rfl) rfl
        (by simp [Cause.stack, isUnbooked]) (by simp [isUnbooked])
  | continues _ _ =>
      exact balanced.unbooked (Unbooked.write c _) rfl
        (by simp [Cause.stack]) nothing
  | reports req error =>
      refine balanced.unbooked (Unbooked.emit c rfl) rfl
        (by simp [Cause.stack, isUnbooked]) ?_
      cases (c.store req).partialMode <;> simp [isUnbooked]
  | removes which =>
      rename_i frame
      refine balanced.unbooked (Unbooked.emit c rfl) rfl ?_
        (by simp [isUnbooked])
      rcases which with rfl | ⟨⟨error, rfl⟩, _⟩ <;>
        simp [Cause.stack, isUnbooked]
  | notifies notifies =>
      refine balanced.unbooked (.refl c) rfl
        (by simp [Cause.stack, isUnbooked]) ?_
      cases notifies <;> simp [isUnbooked]
  | delivers delivers =>
      refine balanced.unbooked (.refl c) rfl
        (by simp [Cause.stack, isUnbooked]) ?_
      cases delivers <;> simp [isUnbooked]
  | goesOn goesOn =>
      cases goesOn with
      | stops _ _ =>
          exact balanced.unbooked (Unbooked.emit c rfl) rfl
            (by simp [Cause.stack, isUnbooked]) nothing
      | _ =>
          exact balanced.unbooked (.refl c) rfl
            (by simp [Cause.stack, isUnbooked]) (by simp [isUnbooked])
  | answers answers _ _ _ =>
      refine balanced.unbooked (Unbooked.emit c rfl) rfl ?_ ?_
      · cases answers <;> simp [Cause.stack, isUnbooked]
      · split <;> simp [isUnbooked]
  | returns _ _ _ idles =>
      exact balanced.unbooked (.idles idles) idles.requests
        (by simp [Cause.stack, isUnbooked]) nothing
  | written _ _ idles =>
      have untouched :
          Unbooked c
            { c with
              stream :=
                { c.stream with writeQueue := c.stream.writeQueue - 1 } } :=
        .refl c
      exact balanced.unbooked (untouched.trans (.idles idles)) idles.requests
        nothing nothing
  | closes closes executed =>
      refine balanced.unbooked (.closes closes executed)
        (closes.requests executed) ?_ ?_
      · cases closes <;> simp [Cause.stack, isUnbooked]
      · rw [(doClose_next executed).2]
        simp [isUnbooked]
  | sendsChunk _ sends =>
      exact balanced.unbooked (.sendsChunk sends)
        (Calm.sendsChunk sends).requests nothing nothing
  | sendsFinal _ sends =>
      refine balanced.unbooked (.sendsFinal sends)
        (Calm.sendsFinal sends).requests nothing ?_
      cases sends <;> simp [isUnbooked]
  | parses admits =>
      rename_i result rest
      have enters := (parseRequest_parses c result).enters
      have same :
          next.requests = (c.parseRequest result).1.requests ∧
            next.trace = (c.parseRequest result).1.trace := by
        cases admits <;> exact ⟨rfl, rfl⟩
      refine balanced.enters
        ⟨same.1.trans enters.requests, fun req => ?_, fun req => ?_,
          fun req => ?_⟩
        (by simp [Cause.stack, isUnbooked]) ?_
      · rw [same.2, enters.appended]
      · rw [same.2, enters.cleanedUp]
      · rw [same.2, enters.finished]
      · cases admits <;> simp [isUnbooked]
  | fails _ fails =>
      obtain ⟨joined, enters⟩ := fails.enters
      exact balanced.enters
        ⟨enters.requests, enters.appended, enters.cleanedUp, enters.finished⟩
        nothing (by simp [isUnbooked])
  | writes shape _ writes =>
      cases writes with
      | finish writesHead _ =>
          exact balanced.unbooked (.writesHead writesHead)
            (Calm.writesHead writesHead).requests
            (by simp [Cause.stack, isUnbooked]) (by simp [isUnbooked])
      | flush writesHead _ =>
          exact balanced.unbooked
            ((Unbooked.writesHead writesHead).trans (.writeChunks _ _ _))
            ((Calm.writesHead writesHead).trans
              (.writeChunks _ _ _)).requests
            (by simp [Cause.stack, isUnbooked]) nothing
      | hold _ _ =>
          exact balanced.holds
            ((Unbooked.writeHead c _ _).trans (.startClosing _ _)) shape
  | leaves shape _ _ =>
      exact balanced.cleansUp (.refl c) shape (by simp [Cause.stack])
        (by simp) rfl
  | pops shape =>
      refine Balanced.emit ?_ rfl
      exact balanced.cleansUp (.refl c) shape (by simp [Cause.stack])
        (by simp) rfl
  | upgrades _ _ shape =>
      refine balanced.cleansUp ?_ shape (by simp [Cause.stack]) (by simp) rfl
      exact Unbooked.emit
        { c with
          stream := { c.stream with listener := false }
          idleTimer := none } rfl
  | finishesHeld empty _ =>
      exact balanced.takesBack (.refl c) empty rfl (by simp [isUnbooked])
  | flushesHeld empty _ =>
      refine balanced.takesBack ?_ empty ?_ nothing
      · exact Unbooked.writeChunks { c with requests := [_] } _ _
      · exact Calm.requests (.writeChunks { c with requests := [_] } _ _)

end Steps

/-! ## Every run -/

theorem preserves_balanced :
    machine.Preserves (fun _ _ => True) Balanced where
  tick := by
    intro frame rest c next frames running _ balanced executed
    have deed : Deed c (.frame frame) next frames := code_deed executed
    cases frame with
    | fire callback =>
        cases executed
        exact balanced.fires
    | _ =>
        exact Balanced.deed balanced (by simp) deed
  tickRaise := fun frame rest c next _ _ _ executed =>
    (code_ne_raise frame c next executed).elim
  ret := by
    intro frame rest c isCallback balanced
    cases frame with
    | callback callback =>
        refine ⟨fun req => balanced.conserved req, fun req => ?_⟩
        simpa [List.count_cons] using balanced.told req
    | _ =>
        cases isCallback
  throw := fun _ _ _ _ throws => by
    simp [machine] at throws
  input := by
    intro input stack c next frames boundary _ balanced accepted
    have below : Balanced c ((Cause.input input).stack ++ stack) := balanced
    exact below.deed (by simp) (accept_deed accepted)
  inputRaise := by
    intro input stack c next boundary _ balanced accepted
    obtain ⟨exception, rfl⟩ := accept_raise accepted
    exact balanced.emit rfl

/--
Whenever nothing runs, a request has left the deque as often as it has joined it, if
it is not in it, and it has been told so each time.
-/
theorem balanced_of_run
    (config : ConnectionConfig)
    (labels : List Label)
    (final : Config)
    (ran : run? config labels = some final)
    (ends : final.stack = [])
    (req : Nat) :
    final.state.trace.count (.appended req) =
        final.state.trace.count (.cleanedUp req) +
          final.state.requests.count req ∧
      final.state.trace.count (.fired (.finishEvent req)) =
        final.state.trace.count (.cleanedUp req) := by
  have balanced : Balanced final.state final.stack :=
    preserves_balanced.run
      ⟨fun _ => by simp [start, initial, held], fun _ => by simp [start, initial]⟩
      (CallMachine.Machine.guarded_true machine _ labels) ran
  rw [ends] at balanced
  have conserved := balanced.conserved req
  have told := balanced.told req
  simp only [held, List.filterMap_nil, List.count_nil, Nat.add_zero]
    at conserved told
  exact ⟨conserved, told.symm⟩

/-- Two requests wait for their responses when the application closes the connection. -/
def closedPipeline : List Label :=
  twoRequests ++
    ([.input (.close none),
      .tick, .tick, .ret, .tick, .tick, .ret,
      .tick, .tick, .ret, .tick, .tick, .ret,
      .tick, .ret] : List Label)

theorem balanced_closedPipeline :
    ∃ final,
      run? {} closedPipeline = some final ∧
        final.state.trace.count (.appended 1) =
            final.state.trace.count (.cleanedUp 1) +
              final.state.requests.count 1 ∧
          final.state.trace.count (.fired (.finishEvent 1)) =
            final.state.trace.count (.cleanedUp 1) :=
  ⟨_, rfl, balanced_of_run {} closedPipeline _ rfl rfl 1⟩

/-! ## What a dropped request is told -/

/-- The event that tells a request why it has been dropped. -/
def IsNotice (req : Nat) (error : Option ErrorCode) (callback : Callback) : Prop :=
  callback = .partialEvent req error ∨
    callback = .errorEvent req error ∨
    callback = .dropEvent req error

/-- A frame that has a dropped request still to be told. -/
inductive IsDue (req : Nat) (error : Option ErrorCode) : Frame → Prop where
  | notify : IsDue req error (.dropNotify req error)
  | fire {callback : Callback} :
      IsNotice req error callback →
      IsDue req error (.fire callback)

/-- The request is received to its end, and so is its response given. -/
def Settled (c : ServerConnection) (req : Nat) : Prop :=
  c.Done req ∧ c.Completed req

/-- A dropped request was settled, or it has been told so, or it will be. -/
def Told
    (c : ServerConnection)
    (stack : List Frame)
    (req : Nat)
    (error : Option ErrorCode)
    (later : List Event) : Prop :=
  c.Settled req ∨
    (∃ callback, IsNotice req error callback ∧ .fired callback ∈ later) ∨
    ∃ frame ∈ stack, IsDue req error frame

/-- Each dropped request is told so, and no other request is. -/
structure Noticed (c : ServerConnection) (stack : List Frame) : Prop where
  told :
    ∀ earlier req error later,
      c.trace = earlier ++ .dropped req error :: later →
      req < c.nextId ∧ Told c stack req error later
  calling :
    ∀ req error,
      .fire (.dropEvent req error) ∈ stack ∨ .dropNotify req error ∈ stack →
      .dropped req error ∈ c.trace
  called :
    ∀ req error,
      .fired (.dropEvent req error) ∈ c.trace →
      .dropped req error ∈ c.trace

/-- No step unsettles an old request. -/
structure Settles (c next : ServerConnection) : Prop where
  nextId : c.nextId ≤ next.nextId
  settled : ∀ req, req < c.nextId → c.Settled req → next.Settled req

namespace Settles

variable {c middle next : ServerConnection}

theorem refl (c : ServerConnection) : Settles c c :=
  ⟨le_rfl, fun _ _ => id⟩

theorem trans
    (one : Settles c middle)
    (two : Settles middle next) :
    Settles c next where
  nextId := le_trans one.nextId two.nextId
  settled req old settled :=
    two.settled req (lt_of_lt_of_le old one.nextId) (one.settled req old settled)

/-- Only the store and the next name matter. -/
theorem of_same
    (nextId : next.nextId = c.nextId)
    (store : next.store = c.store) :
    Settles c next :=
  ⟨by omega, fun req _ => by simp [Settled, Done, Completed, store]⟩

theorem of_steady (steady : Steady c next) : Settles c next where
  nextId := by rw [steady.nextId]
  settled req _ settled :=
    ⟨(steady.done req).mpr settled.1, steady.completed req settled.2⟩

/-- A request keeps its end and its response. -/
theorem setRequest
    (c : ServerConnection)
    (req : Nat)
    {request : ServerRequest}
    (done : request.isDone = (c.store req).isDone)
    (response : request.response = (c.store req).response) :
    Settles c (c.setRequest req request) where
  nextId := le_rfl
  settled other _ settled := by
    by_cases same : other = req
    · subst other
      simpa [Settled, Done, Completed, ServerRequest.responseCompleted,
        ServerConnection.setRequest, done, response] using settled
    · simpa [Settled, Done, Completed, ServerConnection.setRequest, same]
        using settled

theorem cleanupRequest
    (c : ServerConnection)
    (req : Nat)
    (rest : List Nat) :
    Settles c (c.cleanupRequest req rest) := by
  have detached :
      Settles c
        (c.setRequest req { c.store req with connection := false }) :=
    setRequest c req rfl rfl
  exact detached.trans (of_same rfl rfl)

/-- The request that is being parsed is not settled. -/
theorem parses
    {result : Parsed}
    {req : Nat}
    (parses : Parses c result next req)
    (unfinished : ∀ other, c.parsing = some other → ¬ c.Done other) :
    Settles c next where
  nextId := parses.nextId
  settled other old settled := by
    have isOther : other ≠ req := by
      rintro rfl
      obtain ⟨_, _, ⟨parsing, _⟩ | ⟨_, _, isNext, _⟩⟩ := parses.origin
      · exact unfinished other parsing settled.1
      · omega
    simpa [Settled, Done, Completed, parses.others other isOther]
      using settled

theorem readFails
    {req : Nat}
    (fails : ReadFails c next req) :
    Settles c next where
  nextId := fails.nextId
  settled other old settled := by
    by_cases same : other = req
    · subst other
      rcases fails.origin with
        ⟨_, unfinished, _⟩ | ⟨_, isNext, _⟩
      · exact absurd settled.1 unfinished
      · omega
    · simpa [Settled, Done, Completed, fails.others other same] using settled

theorem writesResponse
    {req : Nat}
    {rest : List Nat}
    {given : ServerResponse}
    {frames : List Frame}
    (stored : (c.store req).response = some given)
    (writes : WritesResponse c req rest given next frames) :
    Settles c next := by
  cases writes with
  | finish headed _ =>
      exact of_steady (.writesHead stored headed)
  | flush headed _ =>
      exact of_steady
        ((Steady.writesHead stored headed).trans (.writeChunks _ _ _))
  | hold _ _ =>
      have headed :=
        Steady.writeHead c req stored (completed_prepared c given)
      exact (of_steady (headed.trans (.startClosing _ req))).trans
        (of_same rfl rfl)

end Settles

theorem settles_code
    {frame : Frame}
    {stack : List Frame}
    {c next : ServerConnection}
    {frames : List Frame}
    (receiving : Receiving c (frame :: stack))
    (executed : code frame c = .next next frames) :
    Settles c next := by
  by_cases moves : movesRequests frame = true
  · cases frame with
    | onRead buf =>
        cases buf with
        | nil =>
            cases executed
            exact .refl c
        | cons result rest =>
            obtain ⟨parsed, req, parses, reads⟩ := onReadLoop_next executed
            have settles : Settles c parsed := by
              refine .parses parses fun other isParsing done => ?_
              rcases receiving.buffered with
                between | ⟨_, _, notSilent⟩
              · have idle :=
                  between (.onRead (result :: rest)) (by simp) (by simp [buffer])
                simp [isParsing] at idle
              · exact notSilent (receiving.parsingDone other isParsing done)
            cases reads with
            | route _ _ =>
                exact settles.trans (.setRequest parsed req rfl rfl)
            | _ =>
                exact settles
    | writeNextResponse =>
        obtain ⟨req, rest, given, _, stored, writes⟩ :=
          writeNextResponse_next executed
        exact .writesResponse stored writes
    | finishRequest =>
        obtain ⟨req, rest, _, _, ⟨_, rfl, _⟩ | ⟨_, rfl, _⟩⟩ :=
          finishRequest_next executed
        · exact .setRequest c req rfl rfl
        · exact .cleanupRequest c req rest
    | dropRequests error returns =>
        cases dropRequests_deed executed with
        | rests _ | dropped _ =>
            exact .refl c
        | answers answers _ _ _ | closes answers _ =>
            cases answers
        | pops _ =>
            exact (Settles.cleanupRequest c _ _).trans (.of_same rfl rfl)
        | finishesHeld _ _ | removes _ =>
            exact .of_same rfl rfl
        | flushesHeld _ _ =>
            rename_i req tmpChunks _ _
            have back : Settles c { c with requests := [req] } :=
              .of_same rfl rfl
            exact back.trans (.of_steady (.writeChunks _ req tmpChunks))
    | _ =>
        cases moves
  · exact .of_steady (steady_code (Bool.eq_false_iff.mpr moves) executed)

theorem settles_accept
    {input : Input}
    {top : Option Frame}
    {c next : ServerConnection}
    {frames : List Frame}
    (accepted : accept input top c = some (.next next frames)) :
    Settles c next := by
  cases input with
  | upgrade req =>
      rcases requestUpgrade_next (Option.some.inj accepted) with
        ⟨rfl, _⟩ | ⟨_, _, _, rfl, _⟩
      · exact .refl _
      · have handed := Settles.of_steady (Steady.handOver c req)
        exact handed.trans (.cleanupRequest _ req [])
  | onRead buf =>
      cases top <;> simp only [accept] at accepted
      · split at accepted <;> cases accepted
        exact .refl c
      · cases accepted
  | onReadError error =>
      cases accept_deed accepted with
      | rests _ =>
          exact .refl c
      | fails _ fails =>
          have ended :
              Settles c { c with stream := { c.stream with ended := true } } :=
            .of_same rfl rfl
          exact ended.trans (.readFails fails)
      | answers answers _ _ _ | closes answers _ =>
          cases answers
  | _ =>
      exact .of_steady (calls_accept accepted (by simp) (by simp) (by simp)).1

/-- The frame is not about to tell a request that it has been dropped. -/
def isUndue : Frame → Bool
  | .dropNotify _ _ => false
  | .fire (.dropEvent _ _) => false
  | _ => true

/-- A request is dropped, or a dropped request is told so. -/
def isTelling : Event → Bool
  | .dropped _ _ => true
  | .fired (.dropEvent _ _) => true
  | _ => false

/-- Only `drop_requests` sets out to tell that a request has been dropped. -/
theorem Deed.undue
    {c next : ServerConnection}
    {cause : Cause}
    {frames : List Frame}
    (deed : Deed c cause next frames)
    (notDropping :
      ∀ error returns, cause ≠ .frame (.dropRequests error returns))
    (notNotifying : ∀ req error, cause ≠ .frame (.dropNotify req error)) :
    ∀ frame ∈ frames, isUndue frame = true := by
  cases deed with
  | pops _ =>
      exact absurd rfl (notDropping _ _)
  | notifies _ =>
      exact absurd rfl (notNotifying _ _)
  | closes closes executed =>
      rw [(doClose_next executed).2]
      simp [isUndue]
  | reports req error =>
      cases (c.store req).partialMode <;> simp [isUndue]
  | parses admits =>
      cases admits <;> simp [isUndue]
  | delivers delivers =>
      cases delivers <;> simp [isUndue]
  | goesOn goesOn =>
      cases goesOn <;> simp [isUndue]
  | writes _ _ writes =>
      cases writes <;> simp [isUndue]
  | sendsFinal _ sends =>
      cases sends <;> simp [isUndue]
  | answers _ _ _ _ =>
      split <;> simp [isUndue]
  | rests _ | dropped _ | returns _ _ _ _ | written _ _ _ | waits _ _ _
  | ignores | stops _ | marks _ | continues _ _ | sendsChunk _ _ | enables _
  | flushesHeld _ _ =>
      simp
  | _ =>
      simp [isUndue]

/-- An observation is a new one, or it was at its place before. -/
theorem split_append
    {first events earlier later : List Event}
    {event : Event}
    (shape : first ++ events = earlier ++ event :: later) :
    event ∈ events ∨
      ∃ early,
        first = earlier ++ event :: early ∧ later = early ++ events := by
  rcases List.append_eq_append_iff.mp shape with
    ⟨between, _, rest⟩ | ⟨between, old, rest⟩
  · exact Or.inl (by simp [rest])
  · cases between with
    | nil =>
        have new : event :: later = events := rest
        exact Or.inl (by simp [← new])
    | cons head early =>
        obtain ⟨rfl, rfl⟩ := List.cons.inj rest
        exact Or.inr ⟨early, old, rfl⟩

section Noticed

variable {c next : ServerConnection} {below frames : List Frame}

/-- A step that has nothing to do with dropping. -/
theorem Noticed.apart
    (top : List Frame)
    {may : Event → Bool}
    (noticed : Noticed c (top ++ below))
    (settles : Settles c next)
    (grows : Grows may c.trace next.trace)
    (dropsNothing : ∀ req error, may (.dropped req error) = false)
    (tellsNothing : ∀ req error, may (.fired (.dropEvent req error)) = false)
    (free : ∀ frame ∈ top, ∀ req error, ¬ IsDue req error frame)
    (undue : ∀ frame ∈ frames, isUndue frame = true) :
    Noticed next (frames ++ below) where
  told earlier req error later shape := by
    obtain ⟨events, grew, allowed⟩ := grows
    have notNew : .dropped req error ∉ events := fun new => by
      simpa [dropsNothing req error] using allowed _ new
    obtain ⟨early, old, rfl⟩ :=
      (split_append (grew.symm.trans shape)).resolve_left notNew
    obtain ⟨isOld, told⟩ := noticed.told earlier req error early old
    refine ⟨lt_of_lt_of_le isOld settles.nextId, ?_⟩
    rcases told with
      settled | ⟨callback, isNotice, fired⟩ | ⟨frame, member, isDue⟩
    · exact Or.inl (settles.settled req isOld settled)
    · exact Or.inr (Or.inl
        ⟨callback, isNotice, List.mem_append_left _ fired⟩)
    · rcases List.mem_append.mp member with inTop | inBelow
      · exact absurd isDue (free frame inTop req error)
      · exact Or.inr (Or.inr
          ⟨frame, List.mem_append_right _ inBelow, isDue⟩)
  calling req error calling := by
    have absent : ∀ frame, isUndue frame = false → frame ∉ frames :=
      fun frame due member =>
        Bool.eq_false_iff.mp due (undue frame member)
    apply grows.mem
    apply noticed.calling req error
    rcases calling with fires | notifies
    · exact Or.inl (List.mem_append_right _
        ((List.mem_append.mp fires).resolve_left (absent _ rfl)))
    · exact Or.inr (List.mem_append_right _
        ((List.mem_append.mp notifies).resolve_left (absent _ rfl)))
  called req error fired :=
    grows.mem (noticed.called req error (grows.old (tellsNothing req error) fired))

/-- A request is dropped, and it is to be told so. -/
theorem Noticed.drops
    {stack : List Frame}
    {req : Nat}
    {error : Option ErrorCode}
    (noticed : Noticed c stack)
    (isOld : req < c.nextId)
    (told : .dropNotify req error ∈ frames)
    (only :
      ∀ other cause,
        .fire (.dropEvent other cause) ∉ frames ∧
          (.dropNotify other cause ∈ frames → other = req ∧ cause = error)) :
    Noticed (c.emit (.dropped req error)) (frames ++ stack) where
  told earlier other cause later shape := by
    rcases split_append shape with new | ⟨early, old, rfl⟩
    · obtain ⟨rfl, rfl⟩ : other = req ∧ cause = error := by
        simpa using new
      exact ⟨isOld, Or.inr (Or.inr
        ⟨_, List.mem_append_left _ told, .notify⟩)⟩
    · obtain ⟨isOld, told⟩ := noticed.told earlier other cause early old
      refine ⟨isOld, ?_⟩
      rcases told with
        settled | ⟨callback, isNotice, fired⟩ | ⟨frame, member, isDue⟩
      · exact Or.inl settled
      · exact Or.inr (Or.inl
          ⟨callback, isNotice, List.mem_append_left _ fired⟩)
      · exact Or.inr (Or.inr
          ⟨frame, List.mem_append_right _ member, isDue⟩)
  calling other cause calling := by
    rcases calling with fires | notifies
    · have before :=
        (List.mem_append.mp fires).resolve_left (only other cause).1
      exact List.mem_append_left _
        (noticed.calling other cause (Or.inl before))
    · rcases List.mem_append.mp notifies with new | before
      · obtain ⟨rfl, rfl⟩ := (only other cause).2 new
        simp [ServerConnection.emit]
      · exact List.mem_append_left _
          (noticed.calling other cause (Or.inr before))
  called other cause fired := by
    have before : .fired (.dropEvent other cause) ∈ c.trace := by
      simpa [ServerConnection.emit] using fired
    exact List.mem_append_left _ (noticed.called other cause before)

/-- `drop_notify` fires an event, or the request is settled. -/
theorem Noticed.notifies
    {req : Nat}
    {error : Option ErrorCode}
    (noticed : Noticed c (.dropNotify req error :: below))
    (executed : c.dropNotify req error = .next next frames) :
    Noticed next (frames ++ below) := by
  have dropped : .dropped req error ∈ c.trace :=
    noticed.calling req error (Or.inr (by simp))
  have outcome :
      next = c ∧
        (frames = [] ∧ c.Settled req ∨
          ∃ callback, frames = [.fire callback] ∧ IsNotice req error callback) := by
    unfold dropNotify at executed
    dsimp only at executed
    split at executed
    · split at executed <;> cases executed
      · exact ⟨rfl, Or.inr ⟨_, rfl, Or.inl rfl⟩⟩
      · exact ⟨rfl, Or.inr ⟨_, rfl, Or.inr (Or.inl rfl)⟩⟩
    · rename_i done
      have done : c.Done req := by simpa [Done] using done
      split at executed <;> cases executed
      · rename_i completed
        exact ⟨rfl, Or.inl ⟨rfl, done, completed⟩⟩
      · exact ⟨rfl, Or.inr ⟨_, rfl, Or.inr (Or.inr rfl)⟩⟩
  obtain ⟨rfl, outcome⟩ := outcome
  refine ⟨?_, ?_, noticed.called⟩
  · intro earlier other cause later shape
    obtain ⟨isOld, told⟩ := noticed.told earlier other cause later shape
    refine ⟨isOld, ?_⟩
    rcases told with settled | fired | ⟨frame, member, isDue⟩
    · exact Or.inl settled
    · exact Or.inr (Or.inl fired)
    · rcases List.mem_cons.mp member with rfl | inBelow
      · cases isDue
        rcases outcome with
          ⟨_, settled⟩ | ⟨callback, rfl, isNotice⟩
        · exact Or.inl settled
        · exact Or.inr (Or.inr ⟨_, by simp, .fire isNotice⟩)
      · exact Or.inr (Or.inr
          ⟨frame, List.mem_append_right _ inBelow, isDue⟩)
  · intro other cause calling
    rcases calling with fires | notifies
    · rcases List.mem_append.mp fires with new | before
      · rcases outcome with ⟨rfl, _⟩ | ⟨callback, rfl, isNotice⟩
        · cases new
        · have same : callback = .dropEvent other cause := by
            simpa [eq_comm] using new
          subst callback
          have known : other = req ∧ cause = error := by
            simpa [IsNotice] using isNotice
          rw [known.1, known.2]
          exact dropped
      · exact noticed.calling other cause
          (Or.inl (List.mem_cons_of_mem _ before))
    · rcases List.mem_append.mp notifies with new | before
      · rcases outcome with ⟨rfl, _⟩ | ⟨callback, rfl, _⟩ <;> simp at new
      · exact noticed.calling other cause
          (Or.inr (List.mem_cons_of_mem _ before))

/-- The event that is fired tells the request. -/
theorem Noticed.fires
    {callback : Callback}
    (noticed : Noticed c (.fire callback :: below)) :
    Noticed (c.emit (.fired callback)) (.callback callback :: below) where
  told earlier req error later shape := by
    obtain ⟨early, old, rfl⟩ :=
      (split_append shape).resolve_left (by simp)
    obtain ⟨isOld, told⟩ := noticed.told earlier req error early old
    refine ⟨isOld, ?_⟩
    rcases told with
      settled | ⟨other, isNotice, fired⟩ | ⟨frame, member, isDue⟩
    · exact Or.inl settled
    · exact Or.inr (Or.inl ⟨other, isNotice, List.mem_append_left _ fired⟩)
    · rcases List.mem_cons.mp member with rfl | inBelow
      · cases isDue with
        | fire isNotice =>
            exact Or.inr (Or.inl ⟨callback, isNotice, by simp⟩)
      · exact Or.inr (Or.inr
          ⟨frame, List.mem_cons_of_mem _ inBelow, isDue⟩)
  calling req error calling := by
    refine List.mem_append_left _ (noticed.calling req error ?_)
    have inBelow :
        .fire (.dropEvent req error) ∈ below ∨
          .dropNotify req error ∈ below := by
      simpa using calling
    exact inBelow.imp (List.mem_cons_of_mem _) (List.mem_cons_of_mem _)
  called req error fired := by
    refine List.mem_append_left _ ?_
    by_cases isNew : callback = .dropEvent req error
    · subst callback
      exact noticed.calling req error (Or.inl (by simp))
    · refine noticed.called req error ?_
      simpa [ServerConnection.emit, isNew, eq_comm] using fired

end Noticed

/-- The frames that tell nothing of a dropped request. -/
theorem not_isDue
    {frame : Frame}
    (notNotify : ∀ req error, frame ≠ .dropNotify req error)
    (notFire : ∀ callback, frame ≠ .fire callback)
    (req : Nat)
    (error : Option ErrorCode) :
    ¬ IsDue req error frame := by
  intro isDue
  cases isDue with
  | notify =>
      exact notNotify req error rfl
  | fire _ =>
      exact notFire _ rfl

/-- The code of a frame that has nothing to do with dropping. -/
theorem Noticed.code
    {frame : Frame}
    {c next : ServerConnection}
    {below frames : List Frame}
    (receiving : Receiving c (frame :: below))
    (noticed : Noticed c (frame :: below))
    (executed : ServerConnection.code frame c = .next next frames)
    (notDropping : ∀ error returns, frame ≠ .dropRequests error returns)
    (notNotify : ∀ req error, frame ≠ .dropNotify req error)
    (notFire : ∀ callback, frame ≠ .fire callback) :
    Noticed next (frames ++ below) := by
  have undue : ∀ other ∈ frames, isUndue other = true :=
    Deed.undue (code_deed executed) (by simpa using notDropping)
      (by simpa using notNotify)
  refine Noticed.apart [frame] noticed
    (settles_code receiving executed) (code_emits executed) ?_ ?_ ?_ undue
  · intro req error
    cases frame with
    | dropRequests cause returns =>
        exact absurd rfl (notDropping cause returns)
    | _ =>
        rfl
  · intro req error
    cases frame with
    | fire callback =>
        exact absurd rfl (notFire callback)
    | _ =>
        rfl
  · simpa using not_isDue notNotify notFire

/-- The loop of `drop_requests`, and the code that it returns to. -/
theorem Noticed.dropRequests
    {c next : ServerConnection}
    {below frames : List Frame}
    {error : Option ErrorCode}
    {returns : DropReturn}
    (receiving : Receiving c (.dropRequests error returns :: below))
    (noticed : Noticed c (.dropRequests error returns :: below))
    (executed :
      ServerConnection.code (.dropRequests error returns) c =
        .next next frames) :
    Noticed next (frames ++ below) := by
  have settles := settles_code receiving executed
  have free :
      ∀ frame ∈ [Frame.dropRequests error returns],
        ∀ req cause, ¬ IsDue req cause frame := by
    simpa using not_isDue (by simp) (by simp)
  have apart :
      Grows (fun event => !isTelling event) c.trace next.trace →
      (∀ frame ∈ frames, isUndue frame = true) →
      Noticed next (frames ++ below) :=
    fun grows undue =>
      Noticed.apart [_] noticed settles grows (by simp [isTelling])
        (by simp [isTelling]) free undue
  cases dropRequests_deed executed with
  | answers answers _ _ _ | closes answers _ =>
      cases answers
  | rests _ | dropped _ =>
      exact apart (.refl _) (by simp)
  | finishesHeld _ _ =>
      exact apart (.refl _) (by simp [isUndue])
  | removes _ =>
      exact apart (Grows.snoc c.trace rfl) (by simp [isUndue])
  | flushesHeld _ _ =>
      rename_i req tmpChunks _ _
      exact apart
        (writeChunks_grows { c with requests := [req] } req (fun _ => rfl)
          tmpChunks)
        (by simp)
  | pops shape =>
      rename_i req rest
      have isOld : req < c.nextId :=
        receiving.requestsBelow req (by simp [shape])
      have nothing : ∀ frame ∈ ([] : List Frame), isUndue frame = true := by
        simp
      have grows :
          Grows (fun event => !isTelling event) c.trace
            (c.cleanupRequest req rest).trace :=
        Grows.snoc c.trace rfl
      have cleaned : Noticed (c.cleanupRequest req rest) ([] ++ below) :=
        Noticed.apart [_] noticed (.cleanupRequest c req rest) grows
          (by simp [isTelling]) (by simp [isTelling]) free nothing
      exact cleaned.drops isOld (by simp) (by simp)

theorem preserves_noticed :
    machine.Preserves (fun _ _ => True)
      fun c stack => Receiving c stack ∧ Noticed c stack where
  tick := by
    rintro frame below c next frames _ _ ⟨receiving, noticed⟩ executed
    refine ⟨receiving.tick executed, ?_⟩
    cases frame with
    | fire callback =>
        cases executed
        exact noticed.fires
    | dropNotify req error =>
        exact noticed.notifies executed
    | dropRequests error returns =>
        exact noticed.dropRequests receiving executed
    | _ =>
        exact noticed.code receiving executed (by simp) (by simp) (by simp)
  tickRaise := fun frame rest c next _ _ _ executed =>
    (code_ne_raise frame c next executed).elim
  ret := by
    rintro frame below c isCallback ⟨receiving, noticed⟩
    cases frame with
    | callback callback =>
        refine ⟨receiving.ret, ?_⟩
        have nothing : ∀ frame ∈ ([] : List Frame), isUndue frame = true := by
          simp
        have grows : Grows (fun _ => false) c.trace c.trace := .refl _
        refine Noticed.apart [.callback callback] noticed (.refl c) grows
          (by simp) (by simp) ?_ nothing
        simpa using not_isDue (by simp) (by simp)
    | _ =>
        cases isCallback
  throw := fun _ _ _ _ throws => by
    simp [machine] at throws
  input := by
    rintro input stack c next frames boundary _ ⟨receiving, noticed⟩ accepted
    refine ⟨receiving.input boundary accepted, ?_⟩
    refine Noticed.apart [] noticed (settles_accept accepted)
      (accept_emits accepted) ?_ ?_ (by simp) ?_
    · intro req error
      cases input <;> rfl
    · intro req error
      cases input <;> rfl
    · exact (accept_deed accepted).undue (by simp) (by simp)
  inputRaise := by
    rintro input stack c next boundary _ ⟨receiving, noticed⟩ accepted
    obtain ⟨exception, rfl⟩ := accept_raise accepted
    refine ⟨receiving.threw boundary, ?_⟩
    have grows :
        Grows (fun event => event == .threw exception) c.trace
          (c.emit (.threw exception)).trace :=
      Grows.snoc c.trace (by simp)
    have nothing : ∀ frame ∈ ([] : List Frame), isUndue frame = true := by
      simp
    have same : Settles c (c.emit (.threw exception)) := .of_same rfl rfl
    exact Noticed.apart [] noticed same grows (by simp) (by simp) (by simp)
      nothing

/--
Whenever nothing runs, each request that `drop_requests` has taken out of the deque
had been received and answered to its end, or it has been told why it was dropped;
and `drop_event` tells no other request.
-/
theorem told_of_run
    (config : ConnectionConfig)
    (labels : List Label)
    (final : Config)
    (ran : run? config labels = some final)
    (ends : final.stack = [])
    (req : Nat)
    (error : Option ErrorCode) :
    (∀ earlier later,
        final.state.trace = earlier ++ .dropped req error :: later →
        final.state.Settled req ∨
          ∃ callback,
            IsNotice req error callback ∧ .fired callback ∈ later) ∧
      (.fired (.dropEvent req error) ∈ final.state.trace →
        .dropped req error ∈ final.state.trace) := by
  have starts : Noticed (start config).state (start config).stack :=
    ⟨fun earlier _ _ _ shape => by simp [start, initial] at shape,
      fun _ _ calling => by simp [start] at calling,
      fun _ _ fired => by simp [start, initial] at fired⟩
  obtain ⟨_, noticed⟩ :=
    preserves_noticed.run ⟨receiving_initial config, starts⟩
      (CallMachine.Machine.guarded_true machine _ labels) ran
  rw [ends] at noticed
  refine ⟨fun earlier later shape => ?_, noticed.called req error⟩
  rcases (noticed.told earlier req error later shape).2 with
    settled | fired | ⟨frame, member, _⟩
  · exact Or.inl settled
  · exact Or.inr fired
  · cases member

theorem told_closedPipeline :
    ∃ final,
      run? {} closedPipeline = some final ∧
        (∀ earlier later,
            final.state.trace = earlier ++ .dropped 1 none :: later →
            final.state.Settled 1 ∨
              ∃ callback,
                IsNotice 1 none callback ∧ .fired callback ∈ later) ∧
          (.fired (.dropEvent 1 none) ∈ final.state.trace →
            .dropped 1 none ∈ final.state.trace) :=
  ⟨_, rfl, told_of_run {} closedPipeline _ rfl rfl 1 none⟩

end UniEventHttp.ServerConnection
