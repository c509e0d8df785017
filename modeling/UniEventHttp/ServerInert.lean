import UniEventHttp.History
import UniEventHttp.ServerReceiving

namespace UniEventHttp.ServerConnection

/-!
# Closed connections

After `do_close` a connection should deliver no request any more, neither from
the rest of a buffer nor from a later one.  The loop of `on_read` does not look
at this, so it holds where `do_close` starts only when the loop has nothing left
to deliver or to parse, and where no data arrives after a soft close.
-/

open History

/-! ## What is observed -/

/-- The request that an event delivers to the application. -/
def delivery? : Callback → Option Nat
  | .routeEvent req => some req
  | .partialEvent req none => some req
  | .receiveEvent req => some req
  | .requestEvent req => some req
  | _ => none

def isClose : Event → Bool
  | .closed _ => true
  | _ => false

/-- `do_close` has run. -/
def Shut (c : ServerConnection) : Prop :=
  c.trace.any isClose = true

def isDropOf (req : Nat) : Event → Bool
  | .dropped other _ => other == req
  | _ => false

/-- `drop_requests` has taken the request out of the deque. -/
def Dropped (c : ServerConnection) (req : Nat) : Prop :=
  c.trace.any (isDropOf req) = true

instance (c : ServerConnection) : Decidable c.Shut :=
  inferInstanceAs (Decidable (_ = _))

instance (c : ServerConnection) (req : Nat) : Decidable (c.Dropped req) :=
  inferInstanceAs (Decidable (_ = _))

/--
Nothing is delivered or appended after `do_close`, nothing is delivered to a
dropped request, and the connection is removed when every request has left it.
-/
def Permitted (earlier : List Event) : Event → Prop
  | .fired callback =>
      ∀ req ∈ delivery? callback,
        earlier.any isClose = false ∧ earlier.any (isDropOf req) = false
  | .appended _ => earlier.any isClose = false
  | .removed =>
      ∀ req, Event.newRequest req ∈ earlier → Event.cleanedUp req ∈ earlier
  | _ => True

/-- A closed connection does nothing but drop its requests. -/
def Inert (c : ServerConnection) : Prop :=
  Each Permitted c.trace

/-! ## The condition -/

/-- The frame delivers the request when the frames above have returned. -/
def deliversTo (c : ServerConnection) (req : Nat) : Frame → Bool
  | .fire callback => delivery? callback == some req
  | .routed other done _ =>
      other == req && (done || (c.store other).partialMode)
  | _ => false

/-- `on_read` has something left to deliver or to parse. -/
def readsOn (c : ServerConnection) : Frame → Bool
  | .fire callback => (delivery? callback).isSome
  | .onRead buf => !buf.isEmpty
  | .routed req done _ => done || (c.store req).partialMode
  | .received req done buf =>
      done && !buf.isEmpty &&
        ((c.store req).finishOnReceive ||
          !(c.closing || !(c.store req).headers.keepAlive))
  | _ => false

/-- The `do_close` that a call or `finish_request` starts: its error and its kind. -/
def closing? (config : Config) : Label → Option (Option ErrorCode × Bool)
  | .input (.drop req) =>
      if (config.state.store req).connection &&
          !(config.state.store req).responseCompleted then
        some (some .operationCanceled, false)
      else
        none
  | .input (.close error) => some (error, false)
  | .input (.shutdown error) => some (error, true)
  | .input .gracefulStop =>
      if config.state.requests = [] then
        some (some (.http .serverStopping), true)
      else
        none
  | .tick =>
      if config.stack.head? = some .finishReturn ∧
          (config.state.closing || config.state.stopping) = true then
        some (none, true)
      else
        none
  | _ => none

/--
`do_close` starts when `on_read` has nothing left to do, and when it removes the
connection no request is held outside the deque.  Without an error code it does
not drop an unfinished request in partial mode.
-/
def ClosesQuietly
    (config : Config)
    (error : Option ErrorCode)
    (soft : Bool) : Prop :=
  (∀ frame ∈ config.stack, readsOn config.state frame = false) ∧
    (soft = false → held config.stack = []) ∧
    (error = none →
      ∀ req ∈ config.state.requests,
        config.state.Done req ∨ (config.state.store req).partialMode = false)

/-- `write_next_response` is about to drop the requests behind the first one. -/
def cancels (config : Config) : Label → Bool
  | .tick =>
      match config.stack, config.state.requests with
      | .writeNextResponse :: _, req :: _ :: _ =>
          ((config.state.store req).response.any fun response =>
              !response.keepAlive) ||
            !(config.state.store req).headers.keepAlive
      | _, _ => false
  | _ => false

/-- No event is left for the requests behind the first one. -/
def CancelsQuietly (config : Config) : Prop :=
  ∀ req ∈ config.state.requests.tail,
    ∀ frame ∈ config.stack, deliversTo config.state req frame = false

/-- The frame would take a new partial mode for the delivery of a gone request. -/
def awaitsPartial (config : Config) (req : Nat) : Frame → Bool
  | .routed other _ _ =>
      other == req &&
        (decide config.state.Shut || decide (config.state.Dropped req) ||
          !(held config.stack).isEmpty)
  | .dropNotify other none =>
      other == req && !(config.state.store req).isDone
  | .dropRequests none _ =>
      config.state.requests.contains req && !(config.state.store req).isDone
  | _ => false

/-- The data that the step takes from the stream after a soft close. -/
def readsAfterClose (config : Config) : Label → Bool
  | .input (.onRead buf) => !buf.isEmpty && decide config.state.Shut
  | .input (.onReadError _) => decide config.state.Shut
  | _ => false

/-- The request whose partial mode a call turns on. -/
def partialCall? : Label → Option Nat
  | .input (.enablePartial req) => some req
  | _ => none

/-- The connection is removed or handed over when no other request is attached. -/
def RemovesAlone (config : Config) : Label → Prop
  | .input .onShutdown =>
      ∀ req ∈ config.state.requests, ¬ config.state.Attached req
  | .input (.upgrade req) =>
      config.state.Attached req →
      iequals (config.state.store req).headers.connection "upgrade" = true →
      config.state.requests = [req] →
      held config.stack = []
  | _ => True

/-- The condition under which a closed connection is inert. -/
structure EndsQuietly (config : Config) (label : Label) : Prop where
  closes :
    ∀ close ∈ closing? config label,
      ClosesQuietly config close.1 close.2
  cancels : cancels config label = true → CancelsQuietly config
  partialMode :
    ∀ req ∈ partialCall? label,
      ∀ frame ∈ config.stack, awaitsPartial config req frame = false
  reads : readsAfterClose config label = false
  removes : RemovesAlone config label

section Decidable

variable (config : Config) (label : Label)

instance (error : Option ErrorCode) (soft : Bool) :
    Decidable (ClosesQuietly config error soft) :=
  inferInstanceAs (Decidable (_ ∧ _ ∧ _))

instance : Decidable (CancelsQuietly config) :=
  inferInstanceAs
    (Decidable (∀ req ∈ config.state.requests.tail, ∀ frame ∈ config.stack, _))

instance : Decidable (RemovesAlone config label) := by
  unfold RemovesAlone
  split <;> infer_instance

instance : Decidable (EndsQuietly config label) :=
  decidable_of_iff
    ((∀ close ∈ closing? config label,
        ClosesQuietly config close.1 close.2) ∧
      (cancels config label = true → CancelsQuietly config) ∧
      (∀ req ∈ partialCall? label,
        ∀ frame ∈ config.stack, awaitsPartial config req frame = false) ∧
      readsAfterClose config label = false ∧
      RemovesAlone config label)
    ⟨fun ⟨closes, cancels, partialMode, reads, removes⟩ =>
        ⟨closes, cancels, partialMode, reads, removes⟩,
      fun ⟨closes, cancels, partialMode, reads, removes⟩ =>
        ⟨closes, cancels, partialMode, reads, removes⟩⟩

end Decidable

/-! ## The invariant -/

/-- What is known of a frame of the stack. -/
def Sound (c : ServerConnection) : Frame → Prop
  | .fire callback => ∀ req ∈ delivery? callback, req + 1 = c.nextId
  | .routed req done buf =>
      req + 1 = c.nextId ∧ (done = true → c.Done req) ∧
        (done = false → buf = [])
  | .received req done buf =>
      (done = true → c.Done req) ∧ (done = false → buf = [])
  | .dropRequests error (.doClose _) =>
      c.Shut ∧
        (error = none →
          ∀ req ∈ c.requests,
            c.Done req ∨ (c.store req).partialMode = false)
  | .dropRequests error (.writeNextResponse req _) =>
      req + 1 < c.nextId ∧ error ≠ none
  | .dropNotify req error =>
      error = none → c.Done req ∨ (c.store req).partialMode = false
  | .upgradeReturn => c.requests = []
  | _ => True

/-- The frame ends with the removal of the connection. -/
def isRemoval : Frame → Bool
  | .dropRequests _ (.doClose false) => true
  | .upgradeReturn => true
  | _ => false

/-- Nothing is held below a removal, and nothing above a handover. -/
def Removals : List Frame → Prop
  | [] => True
  | frame :: below =>
      (isRemoval frame = true → held below = []) ∧
        (held? frame ≠ none → Frame.upgradeReturn ∉ below) ∧
        Removals below

/-- The invariant of a connection that may have been closed. -/
structure Quieted (c : ServerConnection) (stack : List Frame) : Prop where
  inert : Inert c
  sound : ∀ frame ∈ stack, Sound c frame
  removals : Removals stack
  created :
    ∀ req,
      Event.newRequest req ∈ c.trace →
      c.Attached req ∨ Event.cleanedUp req ∈ c.trace
  shut : c.Shut → ∀ frame ∈ stack, readsOn c frame = false
  dropped :
    ∀ req,
      c.Dropped req →
      req < c.nextId ∧ (c.Shut ∨ c.Silent) ∧
        ∀ frame ∈ stack, deliversTo c req frame = false
  dropping :
    held stack ≠ [] →
    ∀ req ∈ c.requests,
      ∀ frame ∈ stack, deliversTo c req frame = false

/-! ## Steps that deliver nothing -/

/-- Observations that are permitted at any time and do not close or drop. -/
def isHarmless : Event → Bool
  | .newRequest _ => false
  | .appended _ => false
  | .fired callback => (delivery? callback).isNone
  | .dropped _ _ => false
  | .closed _ => false
  | .removed => false
  | _ => true

/-- The second state follows the first without a delivery. -/
structure Still (c next : ServerConnection) : Prop where
  nextId : next.nextId = c.nextId
  requests : ∀ req ∈ next.requests, req ∈ c.requests
  attached :
    ∀ req,
      c.Attached req →
      next.Attached req ∨ Event.cleanedUp req ∈ next.trace
  done : ∀ req, next.Done req ↔ c.Done req
  silent : c.Silent → next.Silent
  partialMode :
    ∀ req, (next.store req).partialMode = (c.store req).partialMode
  headers : ∀ req, (next.store req).headers = (c.store req).headers
  finishOnReceive :
    ∀ req,
      c.Done req →
      (next.store req).finishOnReceive = (c.store req).finishOnReceive
  closing : c.closing = true → next.closing = true
  trace :
    ∃ events,
      next.trace = c.trace ++ events ∧
        ∀ event ∈ events, isHarmless event = true

namespace Still

theorem refl (c : ServerConnection) : Still c c where
  nextId := rfl
  requests _ := id
  attached _ := Or.inl
  done _ := Iff.rfl
  silent := id
  partialMode _ := rfl
  headers _ := rfl
  finishOnReceive _ _ := rfl
  closing := id
  trace := ⟨[], by simp⟩

theorem trans
    {first second third : ServerConnection}
    (one : Still first second)
    (two : Still second third) :
    Still first third where
  nextId := two.nextId.trans one.nextId
  requests req member := one.requests req (two.requests req member)
  attached req isAttached := by
    rcases one.attached req isAttached with still | cleaned
    · exact two.attached req still
    · obtain ⟨events, shape, _⟩ := two.trace
      exact Or.inr (by simp [shape, cleaned])
  done req := (two.done req).trans (one.done req)
  silent silent := two.silent (one.silent silent)
  partialMode req := (two.partialMode req).trans (one.partialMode req)
  headers req := (two.headers req).trans (one.headers req)
  finishOnReceive req done :=
    (two.finishOnReceive req ((one.done req).mpr done)).trans
      (one.finishOnReceive req done)
  closing closing := two.closing (one.closing closing)
  trace := by
    obtain ⟨early, earlyShape, earlyHarmless⟩ := one.trace
    obtain ⟨late, lateShape, lateHarmless⟩ := two.trace
    refine ⟨early ++ late, by simp [earlyShape, lateShape], ?_⟩
    intro event member
    rcases List.mem_append.mp member with isEarly | isLate
    · exact earlyHarmless event isEarly
    · exact lateHarmless event isLate

/-- A step that changes the stream, the timer, the flags and the trace only. -/
theorem of_store
    {c next : ServerConnection}
    (requests : next.requests = c.requests)
    (store : next.store = c.store)
    (nextId : next.nextId = c.nextId)
    (closing : c.closing = true → next.closing = true)
    (silent : c.Silent → next.Silent)
    (trace :
      ∃ events,
        next.trace = c.trace ++ events ∧
          ∀ event ∈ events, isHarmless event = true) :
    Still c next where
  nextId := nextId
  requests req := by simp [requests]
  attached req isAttached := Or.inl (by simpa [Attached, store] using isAttached)
  done req := by simp [Done, store]
  silent := silent
  partialMode req := by simp [store]
  headers req := by simp [store]
  finishOnReceive req _ := by simp [store]
  closing := closing
  trace := trace

theorem of_plain
    {c next : ServerConnection}
    (plain : Plain c next)
    (trace : next.trace = c.trace) :
    Still c next :=
  of_store plain.requests plain.store plain.nextId
    (fun closing => plain.closing.trans closing) plain.silent
    ⟨[], by simp [trace]⟩

theorem emit
    (c : ServerConnection)
    {event : Event}
    (harmless : isHarmless event = true) :
    Still c (c.emit event) :=
  of_store rfl rfl rfl id id ⟨[event], rfl, by simpa using harmless⟩

theorem write (c : ServerConnection) (piece : Piece) :
    Still c (c.write piece) :=
  of_store rfl rfl rfl id id ⟨[.wrote piece], rfl, by simp [isHarmless]⟩

theorem writeChunks
    (c : ServerConnection)
    (req : Nat)
    (chunks : List Data) :
    Still c (c.writeChunks req chunks) := by
  induction chunks generalizing c with
  | nil =>
      exact refl c
  | cons data rest inductionHypothesis =>
      exact (write c _).trans (inductionHypothesis _)

theorem readIgnore (c : ServerConnection) : Still c c.readIgnore :=
  of_store rfl rfl rfl id
    (fun _ => by simp [Silent, canRead, ServerConnection.readIgnore])
    ⟨[.readIgnored], rfl, by simp [isHarmless]⟩

/-- A new request object that tells the loop of `on_read` the same. -/
theorem setRequest
    (c : ServerConnection)
    (req : Nat)
    (request : ServerRequest)
    (connection : request.connection = (c.store req).connection)
    (isDone : request.isDone = (c.store req).isDone)
    (partialMode : request.partialMode = (c.store req).partialMode)
    (head : request.head = (c.store req).head)
    (finishOnReceive :
      c.Done req → request.finishOnReceive = (c.store req).finishOnReceive) :
    Still c (c.setRequest req request) where
  nextId := rfl
  requests _ := id
  attached other isAttached := by
    left
    by_cases same : other = req
    · subst other
      simpa [Attached, connection] using isAttached
    · simpa [Attached, same] using isAttached
  done other := by
    by_cases same : other = req <;> simp [Done, same, isDone]
  silent := id
  partialMode other := by
    by_cases same : other = req <;> simp [same, partialMode]
  headers other := by
    by_cases same : other = req <;>
      simp [same, ServerRequest.headers, head]
  finishOnReceive other done := by
    by_cases same : other = req
    · subst other
      simpa using finishOnReceive done
    · simp [same]
  closing := id
  trace := ⟨[], by simp [ServerConnection.setRequest]⟩

theorem setResponse
    (c : ServerConnection)
    (req : Nat)
    (response : ServerResponse) :
    Still c (c.setResponse req response) :=
  setRequest c req _ rfl rfl rfl rfl fun _ => rfl

theorem writeHead
    (c : ServerConnection)
    (req : Nat)
    (response : ServerResponse) :
    Still c (c.writeHead req response) :=
  (setResponse c req response).trans (write _ _)

theorem startClosing
    (c : ServerConnection)
    (req : Nat) :
    Still c (c.startClosing req) := by
  have closes : Still c { c with closing := true } :=
    of_store rfl rfl rfl (fun _ => rfl) id ⟨[], by simp⟩
  simp only [ServerConnection.startClosing]
  split
  · exact closes.trans (readIgnore _)
  · exact closes

theorem takeResponse
    (c : ServerConnection)
    (req : Nat)
    (response : ServerResponse) :
    Still c (c.takeResponse req response) := by
  have flags :
      ∀ processed stopping,
        Still c { c with
          requestsProcessed := processed, stopping := stopping } :=
    fun _ _ => of_store rfl rfl rfl id id ⟨[], by simp⟩
  exact ((flags _ _).trans (setResponse _ req _)).trans (emit _ rfl)

/-- A request leaves the deque and is detached. -/
theorem cleanupRequest
    (c : ServerConnection)
    (req : Nat)
    (rest : List Nat)
    (shape : c.requests = req :: rest) :
    Still c (c.cleanupRequest req rest) where
  nextId := rfl
  requests other member := by
    rw [shape]
    exact List.mem_cons_of_mem _ member
  attached other isAttached := by
    by_cases same : other = req
    · right
      simp [ServerConnection.cleanupRequest, ServerConnection.emit, same]
    · left
      simpa [Attached, ServerConnection.cleanupRequest, ServerConnection.emit,
        ServerConnection.setRequest, same] using isAttached
  done other := by
    by_cases same : other = req <;>
      simp [Done, ServerConnection.cleanupRequest, ServerConnection.emit,
        ServerConnection.setRequest, same]
  silent := id
  partialMode other := by
    by_cases same : other = req <;>
      simp [ServerConnection.cleanupRequest, ServerConnection.emit,
        ServerConnection.setRequest, same]
  headers other := by
    by_cases same : other = req <;>
      simp [ServerConnection.cleanupRequest, ServerConnection.emit,
        ServerConnection.setRequest, ServerRequest.headers, same]
  finishOnReceive other _ := by
    by_cases same : other = req <;>
      simp [ServerConnection.cleanupRequest, ServerConnection.emit,
        ServerConnection.setRequest, same]
  closing := id
  trace := ⟨[.cleanedUp req], rfl, by simp [isHarmless]⟩

section Facts

variable {c next : ServerConnection}

theorem shut (still : Still c next) : next.Shut ↔ c.Shut := by
  obtain ⟨events, shape, harmless⟩ := still.trace
  have none : events.any isClose = false := by
    rw [List.any_eq_false]
    intro event member closes
    have := harmless event member
    cases event <;> simp_all [isClose, isHarmless]
  simp [Shut, shape, none]

theorem dropped (still : Still c next) (req : Nat) :
    next.Dropped req ↔ c.Dropped req := by
  obtain ⟨events, shape, harmless⟩ := still.trace
  have none : events.any (isDropOf req) = false := by
    rw [List.any_eq_false]
    intro event member drops
    have := harmless event member
    cases event <;> simp_all [isDropOf, isHarmless]
  simp [Dropped, shape, none]

theorem inert (still : Still c next) (inert : Inert c) : Inert next := by
  obtain ⟨events, shape, harmless⟩ := still.trace
  unfold Inert
  rw [shape]
  refine each_append.mpr ⟨inert, ?_⟩
  intro earlier event later inside
  have := harmless event (by simp [inside])
  cases event with
  | fired callback =>
      have none : delivery? callback = none := by
        simpa [isHarmless] using this
      simp [Permitted, none]
  | _ =>
      simp_all [Permitted, isHarmless]

theorem created
    (still : Still c next)
    {req : Nat}
    (member : Event.newRequest req ∈ next.trace) :
    Event.newRequest req ∈ c.trace := by
  obtain ⟨events, shape, harmless⟩ := still.trace
  rw [shape, List.mem_append] at member
  rcases member with old | new
  · exact old
  · simp [isHarmless] at harmless
    exact (by simpa [isHarmless] using harmless _ new)

end Facts

end Still

/-! ## The frames that stay on the stack -/

section Frames

variable {c next : ServerConnection} {frame : Frame}

theorem deliversTo_still
    (still : Still c next)
    (req : Nat) :
    deliversTo next req frame = deliversTo c req frame := by
  cases frame <;> simp [deliversTo, still.partialMode]

theorem readsOn_still
    (still : Still c next)
    (sound : Sound c frame)
    (quiet : readsOn c frame = false) :
    readsOn next frame = false := by
  cases frame with
  | routed req done buf =>
      simpa [readsOn, still.partialMode] using quiet
  | received req done buf =>
      cases done with
      | false =>
          rfl
      | true =>
          have same := still.finishOnReceive req (sound.1 rfl)
          simp only [readsOn, same, still.headers] at quiet ⊢
          have closing := still.closing
          cases wasClosing : c.closing <;> simp_all
  | _ =>
      exact quiet

theorem sound_still
    (still : Still c next)
    (sound : Sound c frame) :
    Sound next frame := by
  cases frame with
  | fire callback =>
      simpa [Sound, still.nextId] using sound
  | routed req done buf | received req done buf =>
      simpa [Sound, still.nextId, still.done] using sound
  | dropRequests error returns =>
      cases returns with
      | doClose soft =>
          refine ⟨still.shut.mpr sound.1, ?_⟩
          intro noError req member
          rw [still.done, still.partialMode]
          exact sound.2 noError req (still.requests req member)
      | writeNextResponse req tmpChunks =>
          simpa [Sound, still.nextId] using sound
  | dropNotify req error =>
      simpa [Sound, still.done, still.partialMode] using sound
  | upgradeReturn =>
      have empty : c.requests = [] := sound
      refine List.eq_nil_iff_forall_not_mem.mpr ?_
      intro req member
      simpa [empty] using still.requests req member
  | _ =>
      trivial

/-- A frame that delivers to a request reads on. -/
theorem readsOn_of_deliversTo
    {req : Nat}
    (quiet : readsOn c frame = false) :
    deliversTo c req frame = false := by
  cases frame with
  | fire callback =>
      have none : delivery? callback = none := by
        simpa [readsOn] using quiet
      simp [deliversTo, none]
  | routed other done buf =>
      simp_all [readsOn, deliversTo]
  | _ =>
      rfl

end Frames

/-! ## How the stack changes -/

theorem Quieted.still
    {c next : ServerConnection}
    {stack : List Frame}
    (quieted : Quieted c stack)
    (still : Still c next) :
    Quieted next stack where
  inert := still.inert quieted.inert
  sound frame member := sound_still still (quieted.sound frame member)
  removals := quieted.removals
  created req member := by
    rcases quieted.created req (still.created member) with attached | cleaned
    · exact still.attached req attached
    · obtain ⟨events, shape, _⟩ := still.trace
      exact Or.inr (by simp [shape, cleaned])
  shut isShut frame member :=
    readsOn_still still (quieted.sound frame member)
      (quieted.shut (still.shut.mp isShut) frame member)
  dropped req isDropped := by
    obtain ⟨below, ends, quiet⟩ :=
      quieted.dropped req ((still.dropped req).mp isDropped)
    refine ⟨still.nextId ▸ below, ends.imp still.shut.mpr still.silent, ?_⟩
    intro frame member
    rw [deliversTo_still still]
    exact quiet frame member
  dropping holds req member frame inStack := by
    rw [deliversTo_still still]
    exact quieted.dropping holds req (still.requests req member) frame inStack

/-- The top frame is gone. -/
theorem Quieted.pop
    {c : ServerConnection}
    {frame : Frame}
    {rest : List Frame}
    (quieted : Quieted c (frame :: rest)) :
    Quieted c rest where
  inert := quieted.inert
  sound other member := quieted.sound other (List.mem_cons_of_mem _ member)
  removals := quieted.removals.2.2
  created := quieted.created
  shut isShut other member :=
    quieted.shut isShut other (List.mem_cons_of_mem _ member)
  dropped req isDropped := by
    obtain ⟨below, ends, quiet⟩ := quieted.dropped req isDropped
    exact ⟨below, ends,
      fun other member => quiet other (List.mem_cons_of_mem _ member)⟩
  dropping holds req member other inRest := by
    refine quieted.dropping ?_ req member other (List.mem_cons_of_mem _ inRest)
    unfold held
    rw [List.filterMap_cons]
    split
    · exact holds
    · simp

/-- What a frame needs to join the stack. -/
structure Joins
    (c : ServerConnection)
    (frame : Frame)
    (below : List Frame) : Prop where
  sound : Sound c frame
  notHeld : held? frame = none
  removal : isRemoval frame = true → held below = []
  quiet : c.Shut → readsOn c frame = false
  dropped : ∀ req, c.Dropped req → deliversTo c req frame = false
  dropping :
    held below ≠ [] →
    ∀ req ∈ c.requests, deliversTo c req frame = false

theorem Quieted.push
    {c : ServerConnection}
    {frame : Frame}
    {below : List Frame}
    (quieted : Quieted c below)
    (joins : Joins c frame below) :
    Quieted c (frame :: below) where
  inert := quieted.inert
  sound other member := by
    rcases List.mem_cons.mp member with rfl | inBelow
    · exact joins.sound
    · exact quieted.sound other inBelow
  removals :=
    ⟨joins.removal, fun held => (held joins.notHeld).elim, quieted.removals⟩
  created := quieted.created
  shut isShut other member := by
    rcases List.mem_cons.mp member with rfl | inBelow
    · exact joins.quiet isShut
    · exact quieted.shut isShut other inBelow
  dropped req isDropped := by
    obtain ⟨reqBelow, ends, quiet⟩ := quieted.dropped req isDropped
    refine ⟨reqBelow, ends, ?_⟩
    intro other member
    rcases List.mem_cons.mp member with rfl | inBelow
    · exact joins.dropped req isDropped
    · exact quiet other inBelow
  dropping holds req inDeque other member := by
    have belowHolds : held below ≠ [] := by
      simpa [held, joins.notHeld] using holds
    rcases List.mem_cons.mp member with rfl | inBelow
    · exact joins.dropping belowHolds req inDeque
    · exact quieted.dropping belowHolds req inDeque other inBelow

/-- Frames that neither deliver, nor hold, nor remove anything. -/
def isSettled : Frame → Bool
  | .callback _ => true
  | .fire callback => (delivery? callback).isNone
  | .onRead buf => buf.isEmpty
  | .requestError _ _ => true
  | .requestErrorReturn _ => true
  | .readIgnore => true
  | .writeNextResponse => true
  | .finishRequest => true
  | .finishReturn => true
  | _ => false

theorem joins_of_settled
    (c : ServerConnection)
    {frame : Frame}
    (below : List Frame)
    (settled : isSettled frame = true) :
    Joins c frame below := by
  cases frame with
  | fire callback =>
      have none : delivery? callback = none := by
        simpa [isSettled] using settled
      constructor <;> simp [Sound, held?, isRemoval, readsOn, deliversTo, none]
  | routed req done buf | received req done buf | dropRequests error returns
  | dropNotify req error | upgradeReturn =>
      simp [isSettled] at settled
  | onRead buf =>
      constructor <;>
        simp_all [isSettled, Sound, held?, isRemoval, readsOn, deliversTo]
  | _ =>
      constructor <;> simp [Sound, held?, isRemoval, readsOn, deliversTo]

/-- Settled frames may always join the stack. -/
theorem Quieted.settle
    {c : ServerConnection}
    {frames below : List Frame}
    (quieted : Quieted c below)
    (settled : ∀ frame ∈ frames, isSettled frame = true) :
    Quieted c (frames ++ below) := by
  induction frames with
  | nil =>
      exact quieted
  | cons frame rest inductionHypothesis =>
      have restSettled :=
        inductionHypothesis
          fun other member => settled other (List.mem_cons_of_mem _ member)
      exact restSettled.push
        (joins_of_settled c (rest ++ below) (settled frame (by simp)))

/-! ## Observations -/

/-- Observations that later ones depend on. -/
def isMark : Event → Bool
  | .newRequest _ => true
  | .dropped _ _ => true
  | .closed _ => true
  | _ => false

/-- An observation leaves what is known of a frame as it is. -/
theorem sound_emit
    {c : ServerConnection}
    {frame : Frame}
    (event : Event)
    (sound : Sound c frame) :
    Sound (c.emit event) frame := by
  cases frame with
  | dropRequests error returns =>
      cases returns with
      | doClose soft =>
          refine ⟨?_, sound.2⟩
          have isShut := sound.1
          unfold Shut at isShut ⊢
          simp [ServerConnection.emit, isShut]
      | writeNextResponse req tmpChunks =>
          exact sound
  | _ =>
      exact sound

theorem Quieted.created_emit
    {c : ServerConnection}
    {stack : List Frame}
    {event : Event}
    (quieted : Quieted c stack)
    (old : ∀ req, event ≠ .newRequest req)
    (req : Nat)
    (member : Event.newRequest req ∈ (c.emit event).trace) :
    (c.emit event).Attached req ∨
      Event.cleanedUp req ∈ (c.emit event).trace := by
  rcases List.mem_append.mp member with wasCreated | new
  · exact (quieted.created req wasCreated).imp id (List.mem_append_left _)
  · simp only [List.mem_singleton] at new
    exact (old req new.symm).elim

/-- A permitted observation. -/
theorem Quieted.observe
    {c : ServerConnection}
    {stack : List Frame}
    {event : Event}
    (quieted : Quieted c stack)
    (permitted : Permitted c.trace event)
    (noMark : isMark event = false) :
    Quieted (c.emit event) stack := by
  have notClose : isClose event = false := by
    cases event <;> simp_all [isMark, isClose]
  have notDrop : ∀ req, isDropOf req event = false := by
    intro req
    cases event <;> simp_all [isMark, isDropOf]
  have shut : (c.emit event).Shut ↔ c.Shut := by
    simp [Shut, ServerConnection.emit, notClose]
  have dropped : ∀ req, (c.emit event).Dropped req ↔ c.Dropped req := by
    simp [Dropped, ServerConnection.emit, notDrop]
  refine
    { inert := each_snoc.mpr ⟨quieted.inert, permitted⟩
      sound := fun frame member => sound_emit event (quieted.sound frame member)
      removals := quieted.removals, created := ?_
      shut := fun isShut => quieted.shut (shut.mp isShut), dropped := ?_
      dropping := quieted.dropping }
  · refine quieted.created_emit ?_
    rintro req rfl
    simp [isMark] at noMark
  · intro req isDropped
    obtain ⟨below, ends, quiet⟩ := quieted.dropped req ((dropped req).mp isDropped)
    exact ⟨below, ends.imp shut.mpr id, quiet⟩

/-- `do_close` runs while no frame reads on. -/
theorem Quieted.close
    {c : ServerConnection}
    {stack : List Frame}
    (quieted : Quieted c stack)
    (soft : Bool)
    (quiet : ∀ frame ∈ stack, readsOn c frame = false) :
    Quieted (c.emit (.closed soft)) stack := by
  have isShut : (c.emit (.closed soft)).Shut := by
    simp [Shut, ServerConnection.emit, isClose]
  have dropped :
      ∀ req, (c.emit (.closed soft)).Dropped req ↔ c.Dropped req := by
    simp [Dropped, ServerConnection.emit, isDropOf]
  refine
    { inert := each_snoc.mpr ⟨quieted.inert, trivial⟩
      sound := fun frame member => sound_emit _ (quieted.sound frame member)
      removals := quieted.removals, created := ?_
      shut := fun _ => quiet, dropped := ?_
      dropping := quieted.dropping }
  · exact quieted.created_emit (by simp)
  · intro req isDropped
    obtain ⟨below, _, quiet⟩ := quieted.dropped req ((dropped req).mp isDropped)
    exact ⟨below, Or.inl isShut, quiet⟩

/-- A request for which nothing is left is dropped. -/
theorem Quieted.drop
    {c : ServerConnection}
    {stack : List Frame}
    {req : Nat}
    (quieted : Quieted c stack)
    (error : Option ErrorCode)
    (below : req < c.nextId)
    (ends : c.Shut ∨ c.Silent)
    (quiet : ∀ frame ∈ stack, deliversTo c req frame = false) :
    Quieted (c.emit (.dropped req error)) stack := by
  have shut : (c.emit (.dropped req error)).Shut ↔ c.Shut := by
    simp [Shut, ServerConnection.emit, isClose]
  refine
    { inert := each_snoc.mpr ⟨quieted.inert, trivial⟩
      sound := fun frame member => sound_emit _ (quieted.sound frame member)
      removals := quieted.removals, created := ?_
      shut := fun isShut => quieted.shut (shut.mp isShut), dropped := ?_
      dropping := quieted.dropping }
  · exact quieted.created_emit (by simp)
  · intro other isDropped
    by_cases same : other = req
    · subst other
      exact ⟨below, ends.imp shut.mpr id, quiet⟩
    · have wasDropped : c.Dropped other := by
        simpa [Dropped, ServerConnection.emit, isDropOf, Ne.symm same]
          using isDropped
      obtain ⟨otherBelow, otherEnds, otherQuiet⟩ :=
        quieted.dropped other wasDropped
      exact ⟨otherBelow, otherEnds.imp shut.mpr id, otherQuiet⟩

/-! ## Dispatching and closing -/

/-- A callback runs when its event is permitted. -/
theorem Quieted.fire
    {c : ServerConnection}
    {callback : Callback}
    {rest : List Frame}
    (quieted : Quieted c (.fire callback :: rest)) :
    Quieted (c.emit (.fired callback)) (.callback callback :: rest) := by
  have permitted : Permitted c.trace (.fired callback) := by
    intro req delivers
    have isDelivery : delivery? callback = some req := delivers
    constructor
    · by_contra closed
      have isShut : c.Shut := by simpa [Shut] using closed
      have quiet := quieted.shut isShut (.fire callback) (by simp)
      simp [readsOn, isDelivery] at quiet
    · by_contra dropped
      have isDropped : c.Dropped req := by simpa [Dropped] using dropped
      have quiet :=
        (quieted.dropped req isDropped).2.2 (.fire callback) (by simp)
      simp [deliversTo, isDelivery] at quiet
  exact (quieted.pop.observe permitted rfl).push
    (joins_of_settled _ rest rfl)

/-- `do_close` begins. -/
theorem Quieted.doClose
    {c next : ServerConnection}
    {error : Option ErrorCode}
    {soft : Bool}
    {stack frames : List Frame}
    (quieted : Quieted c stack)
    (quietly :
      (∀ frame ∈ stack, readsOn c frame = false) ∧
        (soft = false → held stack = []) ∧
        (error = none →
          ∀ req ∈ c.requests,
            c.Done req ∨ (c.store req).partialMode = false))
    (executed : c.doClose error soft = .next next frames) :
    Quieted next (frames ++ stack) := by
  obtain ⟨quiet, unheld, silentPartials⟩ := quietly
  have closed : Still (c.emit (.closed soft)) next := by
    cases executed
    cases soft with
    | true =>
        exact Still.of_store rfl rfl rfl id id ⟨[], by simp⟩
    | false =>
        exact Still.of_store rfl rfl rfl id
          (fun _ => by simp [Silent, canRead])
          ⟨[], by simp [stopIdleTimer]⟩
  have isShut : next.Shut := by
    rw [closed.shut]
    simp [Shut, ServerConnection.emit, isClose]
  obtain ⟨_, rfl⟩ := doClose_next executed
  refine ((quieted.close soft quiet).still closed).push ?_
  refine
    { sound := ⟨isShut, ?_⟩, notHeld := rfl, removal := ?_
      quiet := fun _ => rfl, dropped := fun _ _ => rfl
      dropping := fun _ _ _ => rfl }
  · intro noError req member
    have wasIn := closed.requests req member
    rw [closed.done, closed.partialMode]
    exact silentPartials noError req wasIn
  · intro removes
    cases soft with
    | true =>
        simp [isRemoval] at removes
    | false =>
        exact unheld rfl

/-- No request is attached when nothing is in the deque or held outside it. -/
theorem Receiving.detached
    {c : ServerConnection}
    {stack : List Frame}
    (receiving : Receiving c stack)
    (empty : c.requests = [])
    (noneHeld : held stack = [])
    (req : Nat) :
    ¬ c.Attached req := by
  intro isAttached
  rcases receiving.located req isAttached with inside | isHeld
  · simp [empty] at inside
  · simp [noneHeld] at isHeld

/-- The connection is removed when no request is attached. -/
theorem Quieted.remove
    {c next : ServerConnection}
    {stack frames : List Frame}
    (quieted : Quieted c stack)
    (detached : ∀ req, ¬ c.Attached req)
    (executed : c.remove = .next next frames) :
    Quieted next (frames ++ stack) := by
  cases executed
  have permitted : Permitted c.trace .removed := by
    intro req member
    exact (quieted.created req member).resolve_left (detached req)
  exact (quieted.observe permitted rfl).settle (by simp [isSettled])

/-! ## Dropping -/

/-- A frame delivers only to the newest request. -/
theorem newest_of_deliversTo
    {c : ServerConnection}
    {frame : Frame}
    {req : Nat}
    (sound : Sound c frame)
    (delivers : deliversTo c req frame = true) :
    req + 1 = c.nextId := by
  cases frame with
  | fire callback =>
      exact sound req (by simpa [deliversTo] using delivers)
  | routed other done buf =>
      have same : other = req := by
        simp only [deliversTo, Bool.and_eq_true, beq_iff_eq] at delivers
        exact delivers.1
      exact same ▸ sound.1
  | _ =>
      simp [deliversTo] at delivers

/-- One iteration of `drop_requests`. -/
theorem Quieted.dropOne
    {c : ServerConnection}
    {error : Option ErrorCode}
    {returns : DropReturn}
    {rest : List Frame}
    {req : Nat}
    {others : List Nat}
    (receiving : Receiving c (.dropRequests error returns :: rest))
    (quieted : Quieted c (.dropRequests error returns :: rest))
    (shape : c.requests = req :: others) :
    Quieted ((c.cleanupRequest req others).emit (.dropped req error))
      (.fire (.finishEvent req) :: .dropNotify req error ::
        .dropRequests error returns :: rest) := by
  have cleaned := Still.cleanupRequest c req others shape
  have member : req ∈ c.requests := by simp [shape]
  have sound := quieted.sound (.dropRequests error returns) (by simp)
  -- a loop of `do_close` has silenced the stack, the other loop has checked it
  have ends :
      (c.Shut ∨ c.Silent) ∧
        ∀ frame ∈ Frame.dropRequests error returns :: rest,
          deliversTo c req frame = false := by
    cases returns with
    | doClose soft =>
        refine ⟨Or.inl sound.1, ?_⟩
        intro frame inStack
        exact readsOn_of_deliversTo (quieted.shut sound.1 frame inStack)
    | writeNextResponse current tmpChunks =>
        have isHeld :
            current ∈ held
              (.dropRequests error (.writeNextResponse current tmpChunks) ::
                rest) := by
          simp [held, held?]
        exact ⟨Or.inr (receiving.heldApart current isHeld).2.2.2,
          quieted.dropping (List.ne_nil_of_mem isHeld) req member⟩
  have notified :
      error = none → c.Done req ∨ (c.store req).partialMode = false := by
    intro noError
    cases returns with
    | doClose soft =>
        exact sound.2 noError req member
    | writeNextResponse current tmpChunks =>
        exact (sound.2 noError).elim
  have dropped :=
    (quieted.still cleaned).drop error
      (cleaned.nextId ▸ receiving.requestsBelow req member)
      (ends.1.imp cleaned.shut.mpr cleaned.silent)
      (by
        intro frame inStack
        rw [deliversTo_still cleaned]
        exact ends.2 frame inStack)
  have notify :
      Joins ((c.cleanupRequest req others).emit (.dropped req error))
        (.dropNotify req error) (.dropRequests error returns :: rest) := by
    refine
      { sound := sound_emit _ ?_, notHeld := rfl
        removal := by simp [isRemoval]
        quiet := fun _ => rfl, dropped := fun _ _ => rfl
        dropping := fun _ _ _ => rfl }
    intro noError
    rw [cleaned.done, cleaned.partialMode]
    exact notified noError
  exact (dropped.push notify).push (joins_of_settled _ _ rfl)

/-- `write_next_response` holds the first request while the others are dropped. -/
theorem Quieted.hold
    {c : ServerConnection}
    {below : List Frame}
    {req : Nat}
    {rest : List Nat}
    {error : ErrorCode}
    {tmpChunks : List Data}
    (quieted : Quieted c below)
    (shape : c.requests = req :: rest)
    (followed : req + 1 < c.nextId)
    (quiet :
      ∀ other ∈ rest, ∀ frame ∈ below, deliversTo c other frame = false) :
    Quieted { c with requests := rest }
      (.dropRequests (some error) (.writeNextResponse req tmpChunks) ::
        below) := by
  have left : Still c { c with requests := rest } :=
    { Still.refl c with
      requests := fun other member => by
        rw [shape]
        exact List.mem_cons_of_mem _ member }
  have quietedLeft := quieted.still left
  have noHandover : Frame.upgradeReturn ∉ below := by
    intro member
    have empty : c.requests = [] := quieted.sound _ member
    simp [shape] at empty
  refine
    { inert := quietedLeft.inert, created := quietedLeft.created
      sound := ?_, removals := ?_, shut := ?_, dropped := ?_, dropping := ?_ }
  · intro frame member
    rcases List.mem_cons.mp member with rfl | inBelow
    · exact ⟨followed, by simp⟩
    · exact quietedLeft.sound frame inBelow
  · exact ⟨by simp [isRemoval], fun _ => noHandover, quieted.removals⟩
  · intro isShut frame member
    rcases List.mem_cons.mp member with rfl | inBelow
    · rfl
    · exact quietedLeft.shut isShut frame inBelow
  · intro other isDropped
    obtain ⟨otherBelow, ends, otherQuiet⟩ := quietedLeft.dropped other isDropped
    refine ⟨otherBelow, ends, ?_⟩
    intro frame member
    rcases List.mem_cons.mp member with rfl | inBelow
    · rfl
    · exact otherQuiet frame inBelow
  · intro _ other inRest frame member
    rcases List.mem_cons.mp member with rfl | inBelow
    · rfl
    · rw [deliversTo_still left]
      exact quiet other inRest frame inBelow

/-- The held request is put back when the others are gone. -/
theorem Quieted.restore
    {c : ServerConnection}
    {error : Option ErrorCode}
    {req : Nat}
    {tmpChunks : List Data}
    {below : List Frame}
    (quieted :
      Quieted c
        (.dropRequests error (.writeNextResponse req tmpChunks) :: below))
    (done : c.Done req) :
    Quieted { c with requests := [req] } below := by
  have top :=
    quieted.sound (.dropRequests error (.writeNextResponse req tmpChunks))
      (by simp)
  have noHandover : Frame.upgradeReturn ∉ below :=
    quieted.removals.2.1 (by simp [held?])
  have popped := quieted.pop
  refine
    { inert := popped.inert, created := popped.created
      sound := ?_, removals := popped.removals, shut := popped.shut
      dropped := popped.dropped, dropping := ?_ }
  · intro frame member
    have sound := popped.sound frame member
    cases frame with
    | dropRequests otherError returns =>
        cases returns with
        | doClose soft =>
            refine ⟨sound.1, ?_⟩
            intro _ other isReq
            left
            have same : other = req := by simpa using isReq
            exact same ▸ done
        | writeNextResponse other otherChunks =>
            exact sound
    | upgradeReturn =>
        exact (noHandover member).elim
    | _ =>
        exact sound
  · -- the held request is not the newest one, so nothing is left for it
    intro _ other isReq frame member
    have same : other = req := by simpa using isReq
    cases delivers : deliversTo c other frame with
    | false =>
        exact delivers
    | true =>
        have newest := newest_of_deliversTo (popped.sound frame member) delivers
        have older := top.1
        omega

/-! ## Reading -/

/-- A new request object and its place in the deque, while nothing runs. -/
theorem Quieted.grow
    {c next : ServerConnection}
    {stack : List Frame}
    (quieted : Quieted c stack)
    (opened : ¬ c.Shut)
    (grows : c.nextId ≤ next.nextId)
    (silent : c.Silent → next.Silent)
    (attached : ∀ req < c.nextId, c.Attached req → next.Attached req)
    (attachedBelow : ∀ req, c.Attached req → req < c.nextId)
    (trace :
      ∃ events,
        next.trace = c.trace ++ events ∧
          ∀ event ∈ events,
            (∃ req, event = .newRequest req ∧ next.Attached req) ∨
              ∃ req, event = .appended req) :
    Quieted next [] ∧ ¬ next.Shut ∧ ∀ req, next.Dropped req ↔ c.Dropped req := by
  obtain ⟨events, shape, origin⟩ := trace
  have noClose : ∀ event ∈ events, isClose event = false := by
    intro event member
    rcases origin event member with ⟨req, rfl, _⟩ | ⟨req, rfl⟩ <;> rfl
  have noDrop : ∀ req, ∀ event ∈ events, isDropOf req event = false := by
    intro req event member
    rcases origin event member with ⟨other, rfl, _⟩ | ⟨other, rfl⟩ <;> rfl
  have shut : next.Shut ↔ c.Shut := by
    have none : events.any isClose = false := by simpa using noClose
    simp [Shut, shape, none]
  have dropped : ∀ req, next.Dropped req ↔ c.Dropped req := by
    intro req
    have none : events.any (isDropOf req) = false := by simpa using noDrop req
    simp [Dropped, shape, none]
  refine ⟨?_, fun isShut => opened (shut.mp isShut), dropped⟩
  refine
    { inert := ?_, sound := by simp, removals := trivial, created := ?_
      shut := by simp, dropped := ?_, dropping := by simp [held] }
  · unfold Inert
    rw [shape]
    refine each_append.mpr ⟨quieted.inert, ?_⟩
    intro earlier event later inside
    rcases origin event (by simp [inside]) with ⟨req, rfl, _⟩ | ⟨req, rfl⟩
    · trivial
    · have before : earlier.any isClose = false := by
        rw [List.any_eq_false]
        intro other member
        simp [noClose other (by simp [inside, member])]
      simpa [Permitted, Shut, before] using opened
  · intro req member
    rw [shape, List.mem_append] at member
    rcases member with old | new
    · rcases quieted.created req old with wasAttached | cleaned
      · exact Or.inl
          (attached req (attachedBelow req wasAttached) wasAttached)
      · exact Or.inr (by simp [shape, cleaned])
    · rcases origin _ new with ⟨other, same, isAttached⟩ | ⟨other, same⟩
      · cases same
        exact Or.inl isAttached
      · cases same
  · intro req isDropped
    obtain ⟨below, ends, _⟩ := quieted.dropped req ((dropped req).mp isDropped)
    exact ⟨by omega, ends.imp shut.mpr silent, by simp⟩

/-- The loop of `on_read` runs on a connection that is open. -/
theorem Quieted.onReadLoop
    {c next : ServerConnection}
    {result : Parsed}
    {rest : List Parsed}
    {frames : List Frame}
    (receiving : Receiving c [.onRead (result :: rest)])
    (quieted : Quieted c [.onRead (result :: rest)])
    (executed : c.onReadLoop (result :: rest) = .next next frames) :
    Quieted next frames := by
  have opened : ¬ c.Shut := by
    intro isShut
    simpa [readsOn] using
      quieted.shut isShut (.onRead (result :: rest)) (by simp)
  obtain ⟨parsed, req, parses, reads⟩ := onReadLoop_next executed
  obtain ⟨base, stored, origin⟩ := parses.origin
  have silentSame : parsed.Silent ↔ c.Silent := by
    simp [Silent, canRead, parses.stream]
  obtain ⟨quietedParsed, parsedOpened, dropped⟩ :
      Quieted parsed [] ∧ ¬ parsed.Shut ∧
        ∀ other, parsed.Dropped other ↔ c.Dropped other := by
    refine quieted.grow opened parses.nextId silentSame.mpr ?_
      receiving.attachedBelow ?_
    · intro other below isAttached
      simpa [Attached, (parses.stored below).1] using isAttached
    · rcases origin with
        ⟨_, _, _, trace⟩ | ⟨_, fresh, _, _, trace⟩
      · refine ⟨_, trace, ?_⟩
        intro event member
        split at member
        · simp at member
        · exact Or.inr ⟨req, by simpa using member⟩
      · rw [List.append_assoc] at trace
        refine ⟨_, trace, ?_⟩
        intro event member
        rcases List.mem_append.mp member with created | appended
        · exact Or.inl ⟨req, by simpa using created,
            by simp [Attached, stored, fresh]⟩
        · split at appended
          · simp at appended
          · exact Or.inr ⟨req, by simpa using appended⟩
  -- the request is new, or the parser goes on with the newest one
  have newest : req + 1 = parsed.nextId := by
    rcases origin with ⟨parsing, _, same, _⟩ | ⟨_, _, isNext, grows, _⟩
    · exact (receiving.reading parsing).1.trans same.symm
    · omega
  have notDropped : ¬ parsed.Dropped req := by
    intro isDropped
    obtain ⟨below, ends, _⟩ := quieted.dropped req ((dropped req).mp isDropped)
    rcases origin with ⟨parsing, _⟩ | ⟨_, _, isNext, _⟩
    · rcases receiving.buffered with between | ⟨_, _, notSilent⟩
      · have idle :=
          between (.onRead (result :: rest)) (by simp) (by simp [buffer])
        simp [parsing] at idle
      · exact ends.elim opened notSilent
    · omega
  have notDroppedOf :
      ∀ frame other,
        (deliversTo parsed other frame = true → other = req) →
        parsed.Dropped other →
        deliversTo parsed other frame = false := by
    intro frame other onlyReq isDropped
    cases delivers : deliversTo parsed other frame with
    | false =>
        rfl
    | true =>
        exact (notDropped (onlyReq delivers ▸ isDropped)).elim
  have routing :
      Quieted parsed
        [.routed req result.isDone (if result.isDone then rest else [])] := by
    refine quietedParsed.push ?_
    refine
      { sound := ⟨newest, ?_, ?_⟩, notHeld := rfl
        removal := by simp [isRemoval]
        quiet := fun isShut => (parsedOpened isShut).elim
        dropped := ?_, dropping := by simp [held] }
    · intro done
      simp [Done, stored, done]
    · intro unfinished
      simp [unfinished]
    · intro other
      apply notDroppedOf
      intro delivers
      simp only [deliversTo, Bool.and_eq_true, beq_iff_eq] at delivers
      exact delivers.1.symm
  cases reads with
  | @error error _ =>
      have settled :
          ∀ frame ∈ [Frame.requestError req error], isSettled frame = true := by
        simp [isSettled]
      simpa using quietedParsed.settle settled
  | headers _ =>
      exact quietedParsed
  | upgrade _ _ =>
      have settled :
          ∀ frame ∈
            [Frame.requestError req (.http .upgradeInPipeline), .readIgnore],
            isSettled frame = true := by
        simp [isSettled]
      simpa using quietedParsed.settle settled
  | again _ _ =>
      exact routing
  | route _ _ =>
      have routes :
          Still parsed
            (parsed.setRequest req
              { parsed.store req with routed := true }) :=
        Still.setRequest parsed req _ rfl rfl rfl rfl fun _ => rfl
      refine (routing.push ?_).still routes
      refine
        { sound := ?_, notHeld := rfl
          removal := by simp [isRemoval]
          quiet := fun isShut => (parsedOpened isShut).elim
          dropped := ?_, dropping := by simp [held, held?] }
      · intro other delivers
        have same : req = other := by simpa [delivery?] using delivers
        exact same ▸ newest
      · intro other
        apply notDroppedOf
        intro delivers
        have same : req = other := by
          simpa [deliversTo, delivery?] using delivers
        exact same.symm

/-- A read error comes on a connection that is open. -/
theorem Quieted.readFails
    {c next : ServerConnection}
    {req : Nat}
    (quieted : Quieted c [])
    (attachedBelow : ∀ req, c.Attached req → req < c.nextId)
    (opened : ¬ c.Shut)
    (fails : ReadFails c next req) :
    Quieted next [] := by
  refine (quieted.grow opened fails.nextId ?_ ?_ attachedBelow ?_).1
  · simp [Silent, canRead, fails.stream]
  · intro other below isAttached
    simpa [Attached, (fails.stored below).1] using isAttached
  · rcases fails.origin with
      ⟨_, _, _, _, trace, _⟩ | ⟨_, _, _, _, trace, stored⟩
    · exact ⟨[], by simp [trace], by simp⟩
    · refine ⟨_, trace, ?_⟩
      simp [Attached, stored]

/-- The receiving callbacks are dispatched. -/
theorem Quieted.routed
    {c next : ServerConnection}
    {req : Nat}
    {done : Bool}
    {buf : List Parsed}
    {frames : List Frame}
    (quieted : Quieted c [.routed req done buf])
    (executed : c.routed req done buf = .next next frames) :
    Quieted next frames := by
  obtain ⟨newest, isDone, allRead⟩ :=
    quieted.sound (.routed req done buf) (by simp)
  have popped := quieted.pop
  have received :
      (c.Shut → done = false) →
      Quieted c [.received req done buf] := by
    intro finished
    refine popped.push ?_
    refine
      { sound := ⟨isDone, allRead⟩, notHeld := rfl
        removal := by simp [isRemoval], quiet := ?_
        dropped := fun _ _ => rfl, dropping := fun _ _ _ => rfl }
    intro isShut
    simp [readsOn, finished isShut]
  have delivery :
      ∀ callback,
        delivery? callback = some req →
        (done || (c.store req).partialMode) = true →
        ∀ below,
          held below = [] →
          Joins c (.fire callback) below := by
    intro callback delivers reads below noneHeld
    refine
      { sound := ?_, notHeld := rfl, removal := by simp [isRemoval]
        quiet := ?_, dropped := ?_
        dropping := fun holds => (holds noneHeld).elim }
    · intro other isReq
      have same : req = other := by simpa [delivers] using isReq
      exact same ▸ newest
    · intro isShut
      have quiet :=
        quieted.shut isShut (.routed req done buf) (by simp)
      simp [readsOn, reads] at quiet
    · intro other isDropped
      have quiet :=
        (quieted.dropped other isDropped).2.2 (.routed req done buf) (by simp)
      by_cases same : req = other
      · simp [deliversTo, same] at quiet
        simp [same, quiet] at reads
      · simp [deliversTo, delivers, same]
  have shutDone : c.Shut → done = false := by
    intro isShut
    have quiet := quieted.shut isShut (.routed req done buf) (by simp)
    simp only [readsOn, Bool.or_eq_false_iff] at quiet
    exact quiet.1
  simp only [ServerConnection.routed] at executed
  split at executed
  · rename_i inPartialMode
    cases executed
    exact (received shutDone).push
      (delivery _ rfl (by simp [inPartialMode]) _ (by simp [held, held?]))
  · split at executed
    · rename_i isFinished
      cases executed
      have requested :=
        (received shutDone).push
          (delivery (.requestEvent req) rfl (by simp [isFinished]) _
            (by simp [held, held?]))
      exact requested.push
        (delivery (.receiveEvent req) rfl (by simp [isFinished]) _
          (by simp [held, held?]))
    · cases executed
      exact received shutDone

/-- The loop of `on_read` goes on after the receiving callbacks. -/
theorem Quieted.received
    {c next : ServerConnection}
    {req : Nat}
    {done : Bool}
    {buf : List Parsed}
    {frames : List Frame}
    (quieted : Quieted c [.received req done buf])
    (executed : c.received req done buf = .next next frames) :
    Quieted next frames := by
  obtain ⟨isDone, allRead⟩ :=
    quieted.sound (.received req done buf) (by simp)
  have popped := quieted.pop
  have goesOn :
      (c.Shut → buf = []) →
      Quieted c [.onRead buf] := by
    intro finished
    refine popped.push ?_
    refine
      { sound := trivial, notHeld := rfl, removal := by simp [isRemoval]
        quiet := ?_, dropped := fun _ _ => rfl
        dropping := fun _ _ _ => rfl }
    intro isShut
    simp [readsOn, finished isShut]
  have quiet :
      c.Shut →
      (done && !buf.isEmpty &&
        ((c.store req).finishOnReceive ||
          !(c.closing || !(c.store req).headers.keepAlive))) = false :=
    fun isShut => quieted.shut isShut (.received req done buf) (by simp)
  simp only [ServerConnection.received] at executed
  split at executed
  · rename_i unfinished
    cases executed
    exact goesOn fun _ => allRead (by simpa using unfinished)
  · rename_i finished
    have doneTrue : done = true := by simpa using finished
    split at executed
    · rename_i waiting
      cases executed
      have left : Quieted c [.onRead buf] := by
        apply goesOn
        intro isShut
        simpa [doneTrue, waiting] using quiet isShut
      exact left.push (joins_of_settled c _ rfl)
    · split at executed
      · cases executed
        exact popped.still (Still.readIgnore c)
      · rename_i notWaiting stays
        cases executed
        apply goesOn
        intro isShut
        have goes :
            (!(c.closing || !(c.store req).headers.keepAlive)) = true := by
          simpa using stays
        simpa [doneTrue, goes] using quiet isShut

/-! ## Every step -/

/-- A step that delivers nothing and calls settled frames. -/
theorem Quieted.goesOn
    {c next : ServerConnection}
    {rest frames : List Frame}
    (quieted : Quieted c rest)
    (still : Still c next)
    (settled : ∀ frame ∈ frames, isSettled frame = true) :
    Quieted next (frames ++ rest) :=
  (quieted.still still).settle settled

theorem Quieted.respond
    {c next : ServerConnection}
    {req : Nat}
    {response : ServerResponse}
    {stack frames : List Frame}
    (quieted : Quieted c stack)
    (executed : c.respond req response = .next next frames) :
    Quieted next (frames ++ stack) := by
  obtain ⟨_, _, rfl, front, rest, _, ⟨_, rfl⟩ | ⟨_, rfl⟩⟩ :=
    respond_next executed
  · exact quieted.goesOn (Still.takeResponse c req response)
      (by simp [isSettled])
  · exact quieted.goesOn (Still.takeResponse c req response) (by simp)

theorem Quieted.writeNextResponse
    {c next : ServerConnection}
    {rest frames : List Frame}
    (receiving : Receiving c (.writeNextResponse :: rest))
    (quieted : Quieted c (.writeNextResponse :: rest))
    (permitted : EndsQuietly ⟨c, .writeNextResponse :: rest, none⟩ .tick)
    (executed : c.writeNextResponse = .next next frames) :
    Quieted next (frames ++ rest) := by
  have popped := quieted.pop
  have headed :
      ∀ req others response middle,
        WritesHead c req others response middle → Still c middle := by
    intro req others response middle writesHead
    cases writesHead with
    | keepAlive _ _ =>
        exact Still.writeHead c req response
    | closing _ =>
        exact (Still.writeHead c req response).trans (Still.startClosing _ req)
  obtain ⟨req, others, given, shape, stored, outcome⟩ :=
    writeNextResponse_next executed
  cases outcome with
  | finish writesHead _ =>
      exact popped.goesOn (headed _ _ _ _ writesHead) (by simp [isSettled])
  | flush writesHead _ =>
      exact popped.goesOn
        ((headed _ _ _ _ writesHead).trans (Still.writeChunks _ _ _))
        (by simp)
  | hold nonempty last =>
      have still :=
        (Still.writeHead c req
          (c.prepared given).withoutTmpChunks).trans
            (Still.startClosing _ req)
      have sameRequests :=
        (Kept.writeHead c req
          (c.prepared given).withoutTmpChunks).trans
            (Kept.startClosing _ req)
      obtain ⟨second, further, rfl⟩ := List.exists_cons_of_ne_nil nonempty
      have followed : req + 1 < c.nextId := by
        have sorted := receiving.sorted
        rw [shape, List.pairwise_cons] at sorted
        have less := sorted.1 second (by simp)
        have below := receiving.requestsBelow second (by simp [shape])
        omega
      have cancelling :
          cancels ⟨c, .writeNextResponse :: rest, none⟩ .tick = true := by
        rcases last with closes | closes <;> simp [cancels, shape, stored, closes]
      have quiet := permitted.cancels cancelling
      refine (popped.still still).hold (sameRequests.requests.trans shape)
        (still.nextId.symm ▸ followed) ?_
      intro other member frame inRest
      rw [deliversTo_still still]
      exact quiet other (by simpa [shape] using member) frame
        (List.mem_cons_of_mem _ inRest)

theorem Quieted.finishRequest
    {c next : ServerConnection}
    {rest frames : List Frame}
    (quieted : Quieted c (.finishRequest :: rest))
    (executed : c.finishRequest = .next next frames) :
    Quieted next (frames ++ rest) := by
  obtain ⟨req, others, shape, _, ⟨notDone, rfl, rfl⟩ | ⟨_, rfl, rfl⟩⟩ :=
    finishRequest_next executed
  · exact quieted.pop.goesOn
      (Still.setRequest c req _ rfl rfl rfl rfl fun done => (notDone done).elim)
      (by simp)
  · exact quieted.pop.goesOn (Still.cleanupRequest c req others shape)
      (by simp [isSettled, delivery?])

theorem Quieted.finishReturn
    {c next : ServerConnection}
    {rest frames : List Frame}
    (quieted : Quieted c (.finishReturn :: rest))
    (permitted : EndsQuietly ⟨c, .finishReturn :: rest, none⟩ .tick)
    (executed : c.finishReturn = .next next frames) :
    Quieted next (frames ++ rest) := by
  rcases finishReturn_next executed with
    ⟨empty, closed⟩ | ⟨_, _, ⟨plain, trace, rfl, _⟩ | ⟨rfl, rfl, _⟩⟩
  · have ends : (c.closing || c.stopping) = true := by
      by_contra going
      simp only [ServerConnection.finishReturn, going] at executed
      simp only [Bool.not_eq_true] at going
      simp only [empty] at executed
      obtain ⟨rfl, _⟩ := checkIfIdle_next executed
      obtain ⟨_, isFrame⟩ := doClose_next closed
      cases isFrame
    have quietly :=
      permitted.closes (none, true) (by simp [closing?, ends])
    refine quieted.pop.doClose ⟨?_, ?_, ?_⟩ closed
    · intro frame member
      exact quietly.1 frame (List.mem_cons_of_mem _ member)
    · simp
    · simp [empty]
  · exact quieted.pop.goesOn (Still.of_plain plain trace) (by simp)
  · exact quieted.pop.goesOn (Still.refl _) (by simp [isSettled])

theorem Quieted.dropRequests
    {c next : ServerConnection}
    {error : Option ErrorCode}
    {returns : DropReturn}
    {rest frames : List Frame}
    (receiving : Receiving c (.dropRequests error returns :: rest))
    (quieted : Quieted c (.dropRequests error returns :: rest))
    (executed : c.dropRequests error returns = .next next frames) :
    Quieted next (frames ++ rest) := by
  unfold ServerConnection.dropRequests at executed
  split at executed
  · rename_i req others shape
    cases executed
    exact quieted.dropOne receiving shape
  · rename_i empty
    split at executed
    · cases executed
      exact quieted.pop
    · have noneHeld : held rest = [] := quieted.removals.1 rfl
      exact quieted.pop.remove (receiving.detached empty noneHeld) executed
    · rename_i req tmpChunks
      have isHeld :
          req ∈ held
            (.dropRequests error (.writeNextResponse req tmpChunks) ::
              rest) := by
        simp [held, held?]
      have restored :=
        quieted.restore (receiving.heldApart req isHeld).2.2.1
      unfold flushResponse at executed
      split at executed
      · cases executed
        exact restored.goesOn (Still.refl _) (by simp [isSettled])
      · cases executed
        exact restored.goesOn (Still.writeChunks _ req tmpChunks) (by simp)

theorem Quieted.dropNotify
    {c next : ServerConnection}
    {req : Nat}
    {error : Option ErrorCode}
    {rest frames : List Frame}
    (quieted : Quieted c (.dropNotify req error :: rest))
    (executed : c.dropNotify req error = .next next frames) :
    Quieted next (frames ++ rest) := by
  have sound := quieted.sound (.dropNotify req error) (by simp)
  have popped := quieted.pop
  simp only [ServerConnection.dropNotify] at executed
  split at executed
  · rename_i unfinished
    split at executed
    · rename_i inPartialMode
      cases executed
      have isError : error ≠ none := by
        intro noError
        rcases sound noError with done | notPartial
        · simp [Done] at done
          simp [done] at unfinished
        · simp [notPartial] at inPartialMode
      have settled :
          isSettled (.fire (.partialEvent req error)) = true := by
        cases error with
        | none =>
            exact (isError rfl).elim
        | some error =>
            rfl
      exact popped.settle (by simpa using settled)
    · cases executed
      exact popped.settle (by simp [isSettled, delivery?])
  · split at executed
    · cases executed
      exact popped
    · cases executed
      exact popped.settle (by simp [isSettled, delivery?])

theorem Quieted.requestErrorReturn
    {c next : ServerConnection}
    {req : Nat}
    {rest frames : List Frame}
    (quieted : Quieted c (.requestErrorReturn req :: rest))
    (executed : c.requestErrorReturn req = .next next frames) :
    Quieted next (frames ++ rest) := by
  unfold ServerConnection.requestErrorReturn at executed
  split at executed
  · exact quieted.pop.respond executed
  · split at executed
    · cases executed
      exact quieted.pop.goesOn (Still.setResponse c req _) (by simp)
    · cases executed
      exact quieted.pop

theorem Quieted.tick
    {frame : Frame}
    {rest frames : List Frame}
    {c next : ServerConnection}
    (receiving : Receiving c (frame :: rest))
    (quieted : Quieted c (frame :: rest))
    (permitted : EndsQuietly ⟨c, frame :: rest, none⟩ .tick)
    (executed : code frame c = .next next frames) :
    Quieted next (frames ++ rest) := by
  cases frame with
  | callback fired =>
      cases executed
      exact quieted.pop
  | fire fired =>
      cases executed
      exact quieted.fire
  | onRead buf =>
      have alone := receiving.alone rfl
      subst rest
      rw [List.append_nil]
      cases buf with
      | nil =>
          cases executed
          exact quieted.pop
      | cons result rest =>
          exact quieted.onReadLoop receiving executed
  | routed req done buf =>
      have alone := receiving.alone rfl
      subst rest
      rw [List.append_nil]
      exact quieted.routed executed
  | received req done buf =>
      have alone := receiving.alone rfl
      subst rest
      rw [List.append_nil]
      exact quieted.received executed
  | requestError req error =>
      cases executed
      refine quieted.pop.goesOn (Still.readIgnore c) ?_
      intro frame member
      simp only [List.mem_cons, List.not_mem_nil, or_false] at member
      rcases member with rfl | rfl
      · split <;> rfl
      · rfl
  | requestErrorReturn req =>
      exact quieted.requestErrorReturn executed
  | readIgnore =>
      cases executed
      exact quieted.pop.goesOn (Still.readIgnore c) (by simp)
  | writeNextResponse =>
      exact quieted.writeNextResponse receiving permitted executed
  | finishRequest =>
      exact quieted.finishRequest executed
  | finishReturn =>
      exact quieted.finishReturn permitted executed
  | dropRequests error returns =>
      exact quieted.dropRequests receiving executed
  | dropNotify req error =>
      exact quieted.dropNotify executed
  | upgradeReturn =>
      have empty : c.requests = [] := quieted.sound .upgradeReturn (by simp)
      have noneHeld : held rest = [] := quieted.removals.1 rfl
      exact quieted.pop.remove (receiving.detached empty noneHeld) executed

/-! ## Every call -/

theorem Quieted.responseSend
    {c next : ServerConnection}
    {req : Nat}
    {send : ServerResponse → Step}
    {stack frames : List Frame}
    (quieted : Quieted c stack)
    (sends :
      ∀ response,
        send response = .next next frames →
        Still c next ∧ ∀ frame ∈ frames, isSettled frame = true)
    (executed : c.responseSend req send = .next next frames) :
    Quieted next (frames ++ stack) := by
  rcases responseSend_next executed with ⟨rfl, rfl⟩ | ⟨response, _, _, sent⟩
  · exact quieted
  · obtain ⟨still, settled⟩ := sends response sent
    exact quieted.goesOn still settled

theorem still_sendChunk
    {c next : ServerConnection}
    {req : Nat}
    {response : ServerResponse}
    {data : Data}
    {frames : List Frame}
    (executed : c.sendChunk req response data = .next next frames) :
    Still c next ∧ ∀ frame ∈ frames, isSettled frame = true := by
  have emitted : Still c (c.emit (.gaveChunk req data)) := Still.emit c rfl
  simp only [sendChunk] at executed
  split at executed
  · cases executed
  · split at executed
    · cases executed
      exact ⟨emitted, by simp⟩
    · split at executed
      · cases executed
        exact ⟨emitted.trans (Still.write _ _), by simp⟩
      · cases executed
        exact ⟨emitted.trans (Still.setResponse _ _ _), by simp⟩

theorem still_sendFinalChunk
    {c next : ServerConnection}
    {req : Nat}
    {response : ServerResponse}
    {data : Data}
    {frames : List Frame}
    (executed : c.sendFinalChunk req response data = .next next frames) :
    Still c next ∧ ∀ frame ∈ frames, isSettled frame = true := by
  have emitted : Still c (c.emit (.gaveFinalChunk req data)) :=
    Still.emit c rfl
  have given :=
    emitted.trans
      (Still.setResponse _ req { response with completed := true })
  simp only [sendFinalChunk] at executed
  split at executed
  · cases executed
  · split at executed
    · cases executed
      exact ⟨given.trans (Still.write _ _), by simp [isSettled]⟩
    · cases executed
      exact ⟨given, by simp⟩

theorem still_sendContinue
    {c next : ServerConnection}
    {req : Nat}
    {frames : List Frame}
    (executed : c.requestSendContinue req = .next next frames) :
    Still c next ∧ frames = [] := by
  unfold requestSendContinue at executed
  split at executed
  · unfold sendContinue at executed
    split at executed
    · cases executed
    · dsimp only at executed
      split at executed
      · cases executed
        exact ⟨Still.refl _, rfl⟩
      · split at executed
        · cases executed
          exact ⟨Still.refl _, rfl⟩
        · split at executed <;> cases executed
          exact ⟨Still.write c _, rfl⟩
  · cases executed
    exact ⟨Still.refl _, rfl⟩

/-- Partial mode is turned on for a request that no frame waits for. -/
theorem Quieted.enablePartial
    {c : ServerConnection}
    {stack : List Frame}
    {req : Nat}
    (quieted : Quieted c stack)
    (permitted :
      ∀ frame ∈ stack, awaitsPartial ⟨c, stack, none⟩ req frame = false) :
    Quieted
      (c.setRequest req { c.store req with partialMode := true }) stack := by
  have kept :
      Kept c (c.setRequest req { c.store req with partialMode := true }) :=
    Kept.setRequest c req _ rfl rfl
  have others :
      ∀ other,
        other ≠ req →
        (c.setRequest req
          { c.store req with partialMode := true }).store other =
            c.store other := by
    intro other different
    simp [different]
  have waits :
      ∀ other done buf,
        Frame.routed other done buf ∈ stack →
        c.Shut ∨ c.Dropped other ∨ held stack ≠ [] →
        other ≠ req := by
    rintro other done buf member reason rfl
    have quiet := permitted (.routed other done buf) member
    simp only [awaitsPartial, beq_self_eq_true, Bool.true_and,
      Bool.or_eq_false_iff, decide_eq_false_iff_not, Bool.not_eq_false',
      List.isEmpty_iff] at quiet
    exact reason.elim quiet.1.1
      fun reason => reason.elim quiet.1.2 fun holds => holds quiet.2
  refine
    { inert := quieted.inert, sound := ?_, removals := quieted.removals
      created := ?_, shut := ?_, dropped := ?_, dropping := ?_ }
  · intro frame member
    have sound := quieted.sound frame member
    have quiet := permitted frame member
    cases frame with
    | routed other done buf =>
        exact ⟨sound.1, fun isDone => (kept.done other).mpr (sound.2.1 isDone),
          sound.2.2⟩
    | received other done buf =>
        exact ⟨fun isDone => (kept.done other).mpr (sound.1 isDone), sound.2⟩
    | dropRequests error returns =>
        cases returns with
        | doClose soft =>
            refine ⟨sound.1, ?_⟩
            intro noError other inDeque
            by_cases same : other = req
            · left
              subst other
              subst error
              rw [kept.done]
              have contained : c.requests.contains req = true :=
                List.contains_iff_mem.mpr inDeque
              unfold Done
              simpa only [awaitsPartial, contained, Bool.true_and,
                Bool.not_eq_false'] using quiet
            · rw [kept.done, others other same]
              exact sound.2 noError other inDeque
        | writeNextResponse other tmpChunks =>
            exact sound
    | dropNotify other error =>
        intro noError
        by_cases same : other = req
        · left
          subst other
          subst error
          rw [kept.done]
          unfold Done
          simpa only [awaitsPartial, beq_self_eq_true, Bool.true_and,
            Bool.not_eq_false'] using quiet
        · rw [kept.done, others other same]
          exact sound noError
    | _ =>
        exact sound
  · intro other member
    rw [kept.attached]
    exact quieted.created other member
  · intro isShut frame member
    have quiet := quieted.shut isShut frame member
    cases frame with
    | routed other done buf =>
        have different := waits other done buf member (Or.inl isShut)
        simpa [readsOn, different] using quiet
    | received other done buf =>
        have closing :
            (c.setRequest req
              { c.store req with partialMode := true }).closing =
                c.closing := rfl
        by_cases same : other = req
        · subst other
          simpa [readsOn, closing, ServerRequest.headers] using quiet
        · simpa [readsOn, closing, same] using quiet
    | _ =>
        exact quiet
  · intro other isDropped
    obtain ⟨below, ends, quiet⟩ := quieted.dropped other isDropped
    refine ⟨below, ends, ?_⟩
    intro frame member
    have frameQuiet := quiet frame member
    cases frame with
    | routed routed done buf =>
        by_cases same : routed = other
        · subst routed
          have different :=
            waits other done buf member (Or.inr (Or.inl isDropped))
          simpa [deliversTo, different] using frameQuiet
        · simp [deliversTo, same]
    | _ =>
        exact frameQuiet
  · intro holds other inDeque frame member
    have frameQuiet := quieted.dropping holds other inDeque frame member
    cases frame with
    | routed routed done buf =>
        have different :=
          waits routed done buf member (Or.inr (Or.inr holds))
        simpa [deliversTo, different] using frameQuiet
    | _ =>
        exact frameQuiet

/-- The event loop closes the connection with an error while nothing runs. -/
theorem Quieted.breaks
    {c middle next : ServerConnection}
    {error : Option ErrorCode}
    {soft : Bool}
    {frames : List Frame}
    (quieted : Quieted c [])
    (still : Still c middle)
    (noted : error = none → middle.requests = [])
    (executed : middle.doClose error soft = .next next frames) :
    Quieted next (frames ++ []) := by
  refine (quieted.still still).doClose ⟨by simp, fun _ => rfl, ?_⟩ executed
  intro noError
  simp [noted noError]

/-- The stream is handed over. -/
theorem Quieted.upgrade
    {c next : ServerConnection}
    {req : Nat}
    {stack frames : List Frame}
    (quieted : Quieted c stack)
    (permitted : EndsQuietly ⟨c, stack, none⟩ (.input (.upgrade req)))
    (executed : c.requestUpgrade req = .next next frames) :
    Quieted next (frames ++ stack) := by
  unfold requestUpgrade at executed
  split at executed
  · cases executed
    exact quieted
  · rename_i attached
    split at executed
    · cases executed
      exact quieted
    · rename_i upgrades
      unfold ServerConnection.upgrade at executed
      split at executed
      · rename_i alone
        have noneHeld : held stack = [] :=
          permitted.removes (by simpa [Attached] using attached)
            (by simpa using upgrades) alone
        cases executed
        have handedOver :
            Still c
              ({ c with
                stream := { c.stream with listener := false }
                idleTimer := none }.emit (.upgraded req)) :=
          Still.of_store rfl rfl rfl id
            (fun _ => by simp [Silent, canRead, ServerConnection.emit])
            ⟨[.upgraded req], rfl, by simp [isHarmless]⟩
        have cleaned :=
          quieted.still
            (handedOver.trans (Still.cleanupRequest _ req [] alone))
        have returning :
            Joins
              ((({ c with
                stream := { c.stream with listener := false }
                idleTimer := none } : ServerConnection).emit
                  (.upgraded req)).cleanupRequest req [])
              .upgradeReturn stack :=
          { sound := rfl, notHeld := rfl, removal := fun _ => noneHeld
            quiet := fun _ => rfl, dropped := fun _ _ => rfl
            dropping := fun _ _ _ => rfl }
        exact (cleaned.push returning).push (joins_of_settled _ _ rfl)
      · cases executed

theorem Quieted.input
    {input : Input}
    {stack frames : List Frame}
    {c next : ServerConnection}
    (receiving : Receiving c stack)
    (quieted : Quieted c stack)
    (permitted : EndsQuietly ⟨c, stack, none⟩ (.input input))
    (accepted : accept input stack.head? c = some (.next next frames)) :
    Quieted next (frames ++ stack) := by
  have streamed :
      ∀ stream : Stream,
        (c.Silent →
          ({ c with stream := stream } : ServerConnection).Silent) →
        Still c { c with stream := stream } :=
    fun stream silent =>
      Still.of_store rfl rfl rfl id silent ⟨[], by simp⟩
  cases input with
  | respond req response =>
      simp only [accept] at accepted
      split at accepted
      · cases accepted
      · simp only [Option.some.injEq, requestRespond] at accepted
        split at accepted
        · exact quieted.respond accepted
        · cases accepted
          exact quieted
  | sendContinue req =>
      obtain ⟨still, rfl⟩ := still_sendContinue (Option.some.inj accepted)
      exact quieted.still still
  | sendChunk req data =>
      exact quieted.responseSend (fun _ => still_sendChunk)
        (Option.some.inj accepted)
  | sendFinalChunk req data =>
      exact quieted.responseSend (fun _ => still_sendFinalChunk)
        (Option.some.inj accepted)
  | drop req =>
      simp only [accept, Option.some.injEq, requestDrop] at accepted
      split at accepted
      · cases accepted
        exact quieted
      · rename_i dropping
        have quietly :=
          permitted.closes (some .operationCanceled, false)
            (by simpa [closing?] using dropping)
        exact quieted.doClose quietly accepted
  | close error =>
      exact quieted.doClose (permitted.closes (error, false) rfl)
        (Option.some.inj accepted)
  | shutdown error =>
      exact quieted.doClose (permitted.closes (error, true) rfl)
        (Option.some.inj accepted)
  | gracefulStop =>
      simp only [accept, Option.some.injEq, gracefulStop] at accepted
      split at accepted
      · rename_i empty
        exact quieted.doClose
          (permitted.closes (some (.http .serverStopping), true)
            (by simp [closing?, empty]))
          accepted
      · cases accepted
        exact quieted.still
          (Still.of_store rfl rfl rfl id id ⟨[], by simp⟩)
  | enablePartial req =>
      cases accepted
      exact quieted.enablePartial (permitted.partialMode req rfl)
  | upgrade req =>
      exact quieted.upgrade permitted (Option.some.inj accepted)
  | onRead buf =>
      cases stack <;> simp only [List.head?_nil, List.head?_cons, accept]
        at accepted
      · split at accepted
        · cases accepted
          refine quieted.push ?_
          refine
            { sound := trivial, notHeld := rfl
              removal := by simp [isRemoval], quiet := ?_
              dropped := fun _ _ => rfl, dropping := fun _ _ _ => rfl }
          intro isShut
          simpa [readsAfterClose, isShut, readsOn] using permitted.reads
        · cases accepted
      · cases accepted
  | onReadError error =>
      cases stack <;> simp only [List.head?_nil, List.head?_cons, accept]
        at accepted
      · split at accepted
        · obtain ⟨req, rfl, fails⟩ :=
            onReadError_next (Option.some.inj accepted)
          have opened : ¬ c.Shut := by
            simpa [readsAfterClose] using permitted.reads
          have ended :=
            streamed { c.stream with ended := true } (by simp [Silent, canRead])
          have failed :=
            (quieted.still ended).readFails receiving.attachedBelow opened
              fails
          exact failed.settle (by simp [isSettled])
        · cases accepted
      · cases accepted
  | onEof =>
      cases stack <;> simp only [List.head?_nil, List.head?_cons, accept]
        at accepted
      · split at accepted
        · exact quieted.breaks
            (streamed { c.stream with ended := true }
              (by simp [Silent, canRead]))
            (by simp) (Option.some.inj accepted)
        · cases accepted
      · cases accepted
  | onWrite error =>
      cases stack <;> simp only [List.head?_nil, List.head?_cons, accept]
        at accepted
      · split at accepted
        · have written :=
            streamed
              { c.stream with writeQueue := c.stream.writeQueue - 1 }
              (by simp [Silent, canRead])
          have executed := Option.some.inj accepted
          cases error with
          | none =>
              have plain := plain_checkIfIdle
                { c with
                  stream := { c.stream with
                    writeQueue := c.stream.writeQueue - 1 } }
              obtain ⟨rfl, trace⟩ := checkIfIdle_next executed
              rw [onWrite] at executed
              rw [executed] at plain
              exact quieted.still
                (written.trans (Still.of_plain plain.1 trace))
          | some error =>
              exact quieted.breaks written (by simp) executed
        · cases accepted
      · cases accepted
  | onShutdown =>
      cases stack <;> simp only [List.head?_nil, List.head?_cons, accept]
        at accepted
      · split at accepted
        · have stopped :
              Still c
                { c.stopIdleTimer with
                  stream := { c.stream with listener := false } } :=
            Still.of_store rfl rfl rfl id
              (fun _ => by simp [Silent, canRead])
              ⟨[], by simp [stopIdleTimer]⟩
          refine (quieted.still stopped).remove ?_ (Option.some.inj accepted)
          intro req isAttached
          rcases receiving.located req isAttached with inside | isHeld
          · exact permitted.removes req inside isAttached
          · simp [held] at isHeld
        · cases accepted
      · cases accepted
  | onConnectionError error =>
      cases stack <;> simp only [List.head?_nil, List.head?_cons, accept]
        at accepted
      · split at accepted
        · exact quieted.breaks (Still.refl c) (by simp)
            (Option.some.inj accepted)
        · cases accepted
      · cases accepted
  | idleTimeout =>
      cases stack <;> simp only [List.head?_nil, List.head?_cons, accept]
        at accepted
      · split at accepted
        · have executed := Option.some.inj accepted
          unfold onIdleTimeout at executed
          split at executed
          · rename_i empty
            have expired : Still c { c with idleTimer := some false } :=
              Still.of_store rfl rfl rfl id id ⟨[], by simp⟩
            exact quieted.breaks expired (fun _ => empty) executed
          · cases executed
        · cases accepted
      · cases accepted

/-! ## Every run -/

/-- Every permitted step keeps a closed connection inert. -/
theorem quieted_preserved :
    machine.Preserves EndsQuietly
      (fun c stack => Receiving c stack ∧ Quieted c stack) := by
  apply preserves_of
  · intro frame rest c next frames _ permitted ⟨receiving, quieted⟩ executed
    exact ⟨receiving.tick executed,
      quieted.tick receiving permitted executed⟩
  · intro fired rest c ⟨receiving, quieted⟩
    exact ⟨receiving.ret, quieted.pop⟩
  · intro input stack c next frames boundary permitted ⟨receiving, quieted⟩
      accepted
    exact ⟨receiving.input boundary accepted,
      quieted.input receiving permitted accepted⟩
  · intro stack c exception boundary ⟨receiving, quieted⟩
    exact ⟨receiving.threw boundary,
      quieted.still (Still.emit c rfl)⟩

theorem quieted_initial (config : ConnectionConfig) :
    Quieted (initial config) [] where
  inert := each_nil Permitted
  sound := by simp
  removals := trivial
  created := by simp [initial]
  shut := by simp
  dropped := by simp [initial, Dropped]
  dropping := by simp [held]

/-- Where a connection ends quietly, it is inert from then on. -/
theorem inert_of_endsQuietly
    {config : ConnectionConfig}
    {labels : List Label}
    {final : Config}
    (ran : run? config labels = some final)
    (endsQuietly : machine.Guarded EndsQuietly (start config) labels) :
    Inert final.state :=
  (quieted_preserved.run
    (⟨receiving_initial config, quieted_initial config⟩ :
      Receiving (start config).state (start config).stack ∧
        Quieted (start config).state (start config).stack)
    endsQuietly ran).2.inert

/-- The connection is closed from outside when both requests are delivered. -/
def closedFromOutside : List Label :=
  twoRequests ++
    ([.input (.close none),
      .tick, .tick, .ret, .tick, .tick, .ret,
      .tick, .tick, .ret, .tick, .tick, .ret, .tick, .ret] : List Label)

theorem inert_closedFromOutside :
    ∃ final,
      run? {} closedFromOutside = some final ∧
        Inert final.state ∧
        final.state.Shut ∧ Event.removed ∈ final.state.trace := by
  have endsQuietly :
      machine.Guarded EndsQuietly (start {}) closedFromOutside := by
    decide
  have ran : run? {} closedFromOutside = some _ := rfl
  exact ⟨_, ran, inert_of_endsQuietly ran endsQuietly, by decide, by decide⟩

/-- The connection is closed in the request callback of the first of two requests. -/
def closedWhileReading : List Label :=
  [.input (.onRead [.done {}, .done {}]),
    .tick, .tick, .ret, .tick, .tick, .ret, .tick,
    .input (.close none),
    .tick, .tick, .ret, .tick, .tick, .ret, .tick, .ret, .ret,
    .tick, .tick, .tick]

/-- The second request is appended and delivered after the removal. -/
theorem closedWhileReading_not_inert :
    ∃ final,
      run? {} closedWhileReading = some final ∧
        ¬ Inert final.state ∧
        final.state.Attached 1 ∧ Event.removed ∈ final.state.trace := by
  refine ⟨_, rfl, ?_, by decide, by decide⟩
  intro inert
  have opened :=
    inert [_, _, _, _, _, _, _, _, _, _, _, _] (.appended 1) [_] rfl
  cases opened

end UniEventHttp.ServerConnection
