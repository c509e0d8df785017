import UniEventHttp.ServerDeferring

namespace UniEventHttp.ServerConnection

/-!
# Preconditions of internal calls

`request_error` calls `respond`, and `on_read` calls `finish_request`, after a
callback.  Both calls need the request to be where it was before the callback.
They find it there when no callback takes it out of the deque.
-/

/-! ## The calls -/

/--
Where `request_error` is going to respond the request is attached, and where
`on_read` is going to finish a request the first one has a completed response.
-/
structure Prepared (config : Config) : Prop where
  respond :
    ∀ req below,
      config.stack = .requestErrorReturn req :: below →
      ¬ config.state.Responded req →
      config.state.Attached req
  finish :
    ∀ req buf below,
      config.stack = .received req true buf :: below →
      config.state.Waiting req →
      ∃ front rest,
        config.state.requests = front :: rest ∧ config.state.Completed front

/-- The frame is going to respond to the request or to finish it. -/
def awaits (c : ServerConnection) (req : Nat) : Frame → Bool
  | .requestErrorReturn other => other == req && !decide (c.Responded req)
  | .routed other true _ => other == req && decide (c.Waiting req)
  | .received other true _ => other == req && decide (c.Waiting req)
  | _ => false

/--
No request is dropped or upgraded that a frame below is going to respond to or
to finish, and `request_error` is called neither for a detached request without
a response.
-/
def KeepsCallees (config : Config) : Label → Prop
  | .tick =>
      match config.stack with
      | .requestError req _ :: _ =>
          config.state.Attached req ∨ config.state.Responded req
      | .dropRequests _ _ :: below =>
          ∀ req ∈ config.state.requests.head?,
            ∀ frame ∈ below, awaits config.state req frame = false
      | _ => True
  | .input (.upgrade req) =>
      config.state.Attached req →
      iequals (config.state.store req).headers.connection "upgrade" = true →
      config.state.requests = [req] →
      ∀ frame ∈ config.stack, awaits config.state req frame = false
  | _ => True

instance (config : Config) (label : Label) :
    Decidable (KeepsCallees config label) :=
  match label, config with
  | .tick, ⟨_, [], _⟩ =>
      inferInstanceAs (Decidable True)
  | .tick, ⟨c, frame :: rest, _⟩ =>
      match frame with
      | .requestError req _ =>
          inferInstanceAs (Decidable (c.Attached req ∨ c.Responded req))
      | .dropRequests _ _ =>
          inferInstanceAs (Decidable
            (∀ req ∈ c.requests.head?,
              ∀ frame ∈ rest, awaits c req frame = false))
      | .callback _ | .fire _ | .onRead _ | .routed _ _ _ | .received _ _ _ |
        .requestErrorReturn _ | .readIgnore | .writeNextResponse | .finishRequest |
        .finishReturn | .dropNotify _ _ | .upgradeReturn =>
          inferInstanceAs (Decidable True)
  | .input input, ⟨c, stack, _⟩ =>
      match input with
      | .upgrade req =>
          inferInstanceAs (Decidable
            (c.Attached req →
              iequals (c.store req).headers.connection "upgrade" = true →
              c.requests = [req] →
              ∀ frame ∈ stack, awaits c req frame = false))
      | .respond _ _ | .sendContinue _ | .sendChunk _ _ | .sendFinalChunk _ _ |
        .drop _ | .enablePartial _ | .close _ | .shutdown _ | .gracefulStop |
        .onRead _ | .onReadError _ | .onEof | .onWrite _ | .onShutdown |
        .onConnectionError _ | .idleTimeout =>
          inferInstanceAs (Decidable True)
  | .ret, _ | .throw, _ =>
      inferInstanceAs (Decidable True)

/-! ## The invariant -/

/-- The request of a running `request_error` is attached, or it has been answered. -/
def Answerable (c : ServerConnection) (stack : List Frame) : Prop :=
  ∀ req,
    Frame.requestErrorReturn req ∈ stack → c.Attached req ∨ c.Responded req

/-- The invariant of the internal calls. -/
structure Calling (c : ServerConnection) (stack : List Frame) : Prop where
  deferring : Deferring c stack
  answerable : Answerable c stack

/-- Frames are pushed in a state that takes nothing back. -/
theorem Answerable.steady
    {c next : ServerConnection}
    {frames below : List Frame}
    (answerable : Answerable c below)
    (steady : Steady c next)
    (others : ∀ req, Frame.requestErrorReturn req ∉ frames) :
    Answerable next (frames ++ below) := by
  intro req member
  have inBelow :=
    (List.mem_append.mp member).resolve_left (others req)
  exact (answerable req inBelow).imp (steady.attached req).mpr
    (steady.responded req)

/-- A request leaves the deque that `request_error` is not going to respond to. -/
theorem Answerable.cleanup
    {c : ServerConnection}
    {stack : List Frame}
    {req : Nat}
    (rest : List Nat)
    (answerable : Answerable c stack)
    (free : Frame.requestErrorReturn req ∈ stack → c.Responded req) :
    Answerable (c.cleanupRequest req rest) stack := by
  intro other member
  by_cases same : other = req
  · subst other
    right
    simpa [Responded, cleanupRequest, emit, setRequest] using free member
  · simpa [Attached, Responded, cleanupRequest, emit, setRequest, same]
      using answerable other member

theorem not_mem_of_pushed
    {c : ServerConnection}
    {frames : List Frame}
    (pushed : ∀ frame ∈ frames, Pushed c frame)
    (req : Nat) :
    Frame.requestErrorReturn req ∉ frames := by
  intro member
  rcases pushed _ member with plain | ⟨isWriting | isFinishing, _⟩
  · cases plain
  · cases isWriting
  · cases isFinishing

/-- A frame that is not awaited for the request. -/
theorem not_waiting_of_awaits
    {c : ServerConnection}
    {frame : Frame}
    {req : Nat}
    (notAwaiting : awaits c req frame = false)
    (isFull : req ∈ full? frame) :
    ¬ c.Waiting req := by
  cases frame with
  | routed other done buf | received other done buf =>
      cases done <;> simp [full?] at isFull
      subst other
      simpa [awaits] using notAwaiting
  | _ =>
      cases isFull

/-! ## Every step -/

theorem Answerable.tick
    {frame : Frame}
    {rest frames : List Frame}
    {c next : ServerConnection}
    (receiving : Receiving c (frame :: rest))
    (answerable : Answerable c (frame :: rest))
    (permitted : KeepsCallees ⟨c, frame :: rest, none⟩ .tick)
    (executed : code frame c = .next next frames) :
    Answerable next (frames ++ rest) := by
  have popped : Answerable c rest :=
    fun req member => answerable req (List.mem_cons_of_mem _ member)
  cases frame with
  | onRead buf =>
      have alone := receiving.alone rfl
      subst rest
      cases buf with
      | nil =>
          cases executed
          exact popped
      | cons result buf =>
          obtain ⟨parsed, req, _, reads⟩ := onReadLoop_next executed
          intro other member
          cases reads <;> simp at member
  | routed req done buf =>
      refine popped.steady (steady_code rfl executed) ?_
      simp only [code, ServerConnection.routed] at executed
      split at executed
      · cases executed
        simp
      · split at executed <;> cases executed <;> simp
  | received req done buf =>
      refine popped.steady (steady_code rfl executed) ?_
      simp only [code, ServerConnection.received] at executed
      split at executed
      · cases executed
        simp
      · split at executed
        · cases executed
          simp
        · split at executed <;> cases executed <;> simp
  | requestError req error =>
      cases executed
      have kept : c.Attached req ∨ c.Responded req := permitted
      intro other member
      simp only [List.cons_append, List.nil_append, List.mem_cons] at member
      rcases member with isFire | isReturn | inRest
      · cases isFire
      · cases isReturn
        exact kept
      · exact popped other inRest
  | requestErrorReturn req =>
      exact popped.steady (steady_requestErrorReturn executed)
        (not_mem_of_pushed (pushed_requestErrorReturn executed))
  | writeNextResponse =>
      obtain ⟨req, others, given, shape, stored, outcome⟩ :=
        writeNextResponse_next executed
      cases outcome with
      | finish writesHead _ =>
          exact popped.steady (Steady.writesHead stored writesHead) (by simp)
      | flush writesHead _ =>
          exact popped.steady
            ((Steady.writesHead stored writesHead).trans
              (Steady.writeChunks _ _ _))
            (by simp)
      | hold _ _ =>
          have written :
              Answerable
                ((c.writeHead req
                  (c.prepared given).withoutTmpChunks).startClosing req)
                ([.dropRequests (some (.http .pipelineCanceled))
                  (.writeNextResponse req (c.prepared given).tmpChunks)] ++
                  rest) :=
            popped.steady
              ((Steady.writeHead c req stored (completed_prepared c given)).trans
                (Steady.startClosing _ req))
              (by simp)
          exact written
  | finishRequest =>
      obtain ⟨req, others, _, completed, ⟨_, rfl, rfl⟩ | ⟨_, rfl, rfl⟩⟩ :=
        finishRequest_next executed
      · intro other member
        by_cases same : other = req
        · subst other
          simpa [Attached, Responded] using popped _ member
        · simpa [Attached, Responded, same] using popped other member
      · exact (popped.cleanup others fun _ => completed.responded).steady
          (Steady.refl _) (by simp)
  | finishReturn =>
      refine popped.steady (steady_finishReturn executed) ?_
      rcases finishReturn_plain executed with ⟨_, plain⟩ | ⟨_, _, _, rfl⟩
      · intro req member
        have := plain _ member
        simp [isPlainFrame] at this
      · simp
  | dropRequests error returns =>
      simp only [code, ServerConnection.dropRequests] at executed
      split at executed
      · rename_i req others shape
        cases executed
        have cleaned : Answerable (c.cleanupRequest req others) _ :=
          answerable.cleanup others fun member => by
            have inRest : Frame.requestErrorReturn req ∈ rest := by
              simpa using member
            have notAwaiting := permitted req (by simp [shape]) _ inRest
            simpa [awaits] using notAwaiting
        have dropped :
            Answerable _
              ([.fire (.finishEvent req), .dropNotify req error] ++ _) :=
          cleaned.steady (Steady.emit _ (.dropped req error)) (by simp)
        exact dropped
      · split at executed
        · cases executed
          exact popped
        · cases executed
          exact popped.steady (Steady.emit c .removed) (by simp)
        · rename_i req tmpChunks
          have restored : Answerable { c with requests := [req] } rest := popped
          unfold flushResponse at executed
          split at executed
          · cases executed
            exact restored.steady (Steady.refl _) (by simp)
          · cases executed
            exact restored.steady (Steady.writeChunks _ req tmpChunks)
              (by simp)
  | callback _ | fire _ | readIgnore | dropNotify _ _ | upgradeReturn =>
      obtain ⟨steady, pushed⟩ := plain_next rfl executed
      exact popped.steady steady (not_mem_of_pushed pushed)

/-- No frame of a permitted `drop_requests` is going to finish the request. -/
theorem KeepsCallees.drops
    {c : ServerConnection}
    {frame : Frame}
    {rest : List Frame}
    (permitted : KeepsCallees ⟨c, frame :: rest, none⟩ .tick) :
    ∀ error returns,
      frame = .dropRequests error returns →
      ∀ req ∈ c.requests.head?,
        ∀ other ∈ rest, req ∈ full? other → ¬ c.Waiting req := by
  rintro error returns rfl req isHead other member isFull
  exact not_waiting_of_awaits (permitted req isHead other member) isFull

theorem Calling.tick
    {frame : Frame}
    {rest frames : List Frame}
    {c next : ServerConnection}
    (receiving : Receiving c (frame :: rest))
    (calling : Calling c (frame :: rest))
    (permitted : KeepsCallees ⟨c, frame :: rest, none⟩ .tick)
    (executed : code frame c = .next next frames) :
    Calling next (frames ++ rest) where
  deferring := calling.deferring.tick receiving permitted.drops executed
  answerable := calling.answerable.tick receiving permitted executed

theorem Answerable.input
    {input : Input}
    {stack frames : List Frame}
    {c next : ServerConnection}
    (answerable : Answerable c stack)
    (permitted : KeepsCallees ⟨c, stack, none⟩ (.input input))
    (accepted : accept input stack.head? c = some (.next next frames)) :
    Answerable next (frames ++ stack) := by
  have calm :
      (∀ req, input ≠ .upgrade req) →
      (∀ buf, input ≠ .onRead buf) →
      (∀ error, input ≠ .onReadError error) →
      Answerable next (frames ++ stack) := by
    intro notUpgrade notRead notReadError
    obtain ⟨steady, pushed⟩ :=
      calls_accept accepted notUpgrade notRead notReadError
    exact answerable.steady steady (not_mem_of_pushed pushed)
  cases input with
  | upgrade req =>
      rcases requestUpgrade_next (Option.some.inj accepted) with
        ⟨rfl, rfl⟩ | ⟨attached, upgrades, alone, rfl, rfl⟩
      · exact answerable
      · have handedOver : Answerable _ ([] ++ stack) :=
          answerable.steady (Steady.handOver c req) (by simp)
        have responded :
            Frame.requestErrorReturn req ∈ stack → c.Responded req := by
          intro member
          have notAwaiting := permitted attached upgrades alone _ member
          simpa [awaits] using notAwaiting
        exact (handedOver.cleanup [] responded).steady (Steady.refl _)
          (by simp)
  | onRead buf =>
      cases stack with
      | nil =>
          simp only [List.head?_nil, accept] at accepted
          split at accepted <;> cases accepted
          simp [Answerable]
      | cons frame rest =>
          simp [accept] at accepted
  | onReadError error =>
      cases stack with
      | nil =>
          simp only [List.head?_nil, accept] at accepted
          split at accepted
          · obtain ⟨req, rfl, _⟩ :=
              onReadError_next (Option.some.inj accepted)
            simp [Answerable]
          · cases accepted
      | cons frame rest =>
          simp [accept] at accepted
  | _ =>
      apply calm <;> simp

theorem Calling.input
    {input : Input}
    {stack frames : List Frame}
    {c next : ServerConnection}
    (receiving : Receiving c stack)
    (calling : Calling c stack)
    (permitted : KeepsCallees ⟨c, stack, none⟩ (.input input))
    (accepted : accept input stack.head? c = some (.next next frames)) :
    Calling next (frames ++ stack) where
  deferring := by
    refine calling.deferring.input receiving ?_ accepted
    rintro req rfl attached upgrades alone frame member isFull
    exact not_waiting_of_awaits (permitted attached upgrades alone frame member)
      isFull
  answerable := calling.answerable.input permitted accepted

/-! ## Every run -/

/-- Every permitted step keeps the invariant of the internal calls. -/
theorem calling_preserved :
    machine.Preserves KeepsCallees
      (fun c stack => Receiving c stack ∧ Calling c stack) := by
  apply preserves_of
  · intro frame rest c next frames _ permitted ⟨receiving, calling⟩ executed
    exact ⟨receiving.tick executed, calling.tick receiving permitted executed⟩
  · intro fired rest c ⟨receiving, calling⟩
    exact ⟨receiving.ret, calling.deferring.below [_],
      fun req member =>
        calling.answerable req (List.mem_cons_of_mem _ member)⟩
  · intro input stack c next frames boundary permitted ⟨receiving, calling⟩
      accepted
    exact ⟨receiving.input boundary accepted,
      calling.input receiving permitted accepted⟩
  · intro stack c exception boundary ⟨receiving, calling⟩
    have steady := Steady.emit c (.threw exception)
    have answerable : Answerable _ ([] ++ stack) :=
      calling.answerable.steady steady (by simp)
    exact ⟨receiving.threw boundary, calling.deferring.steady steady,
      answerable⟩

theorem calling_initial (config : ConnectionConfig) :
    Calling (initial config) [] where
  deferring := deferring_initial config
  answerable := by simp [Answerable]

/-- The invariant says that the calls are prepared. -/
theorem Calling.prepared
    {c : ServerConnection}
    {stack : List Frame}
    {fault : Option Fault}
    (calling : Calling c stack) :
    Prepared ⟨c, stack, fault⟩ where
  respond := by
    rintro req below rfl unanswered
    exact (calling.answerable req (by simp)).resolve_right unanswered
  finish := by
    rintro req buf below rfl isWaiting
    have isHead :=
      (calling.deferring.kept (.received req true buf) (by simp) req (by simp [full?])
        isWaiting).1
    cases shape : c.requests with
    | nil =>
        simp [shape] at isHead
    | cons front rest =>
        have same : front = req := by simpa [shape] using isHead
        exact ⟨front, rest, rfl, same ▸ calling.deferring.waiting req isWaiting⟩

/-- Where no awaited request leaves the deque, internal calls are prepared. -/
theorem prepared_of_keepsCallees
    {config : ConnectionConfig}
    {labels : List Label}
    {final : Config}
    (ran : run? config labels = some final)
    (keepsCallees : machine.Guarded KeepsCallees (start config) labels) :
    Prepared final :=
  (calling_preserved.run
    (⟨receiving_initial config, calling_initial config⟩ :
      Receiving (start config).state (start config).stack ∧
        Calling (start config).state (start config).stack)
    keepsCallees ran).2.prepared

/-- A request is answered in `route_event`, before its body has arrived. -/
def answeredEarly : List Label :=
  [.input (.onRead [.body {}]),
    .tick, .tick, .input (.respond 0 {}), .tick, .tick, .ret, .tick, .tick,
    .tick,
    .input (.onRead [.done {}]),
    .tick, .tick, .tick, .ret, .tick, .ret]

theorem prepared_answeredEarly :
    ∃ final,
      run? {} answeredEarly = some final ∧ Prepared final ∧
        final.stack = [.received 0 true []] ∧ final.state.Waiting 0 := by
  have keepsCallees :
      machine.Guarded KeepsCallees (start {}) answeredEarly := by
    decide
  have ran : run? {} answeredEarly = some _ := rfl
  exact ⟨_, ran, prepared_of_keepsCallees ran keepsCallees, rfl, by decide⟩

/-- A malformed request is dropped in its `error_event`. -/
def droppedInError : List Label :=
  .input (.onRead [.error (.foreign 0)]) ::
    [.tick, .tick, .tick, .input (.drop 0), .tick, .tick, .ret, .tick, .tick,
      .ret, .tick, .ret, .ret]

/-- `request_error` goes on to respond, and its assertion fails. -/
theorem droppedInError_not_prepared :
    ∃ final next,
      run? {} droppedInError = some final ∧ ¬ Prepared final ∧
        machine.step? final .tick = some next ∧
        next.fault = some .respondDetached := by
  refine ⟨_, _, rfl, ?_, rfl, rfl⟩
  intro prepared
  have attached := prepared.respond 0 [] rfl (by decide)
  revert attached
  decide

/-- The connection is closed in the `request_event` of an answered request. -/
def closedInRequest : List Label :=
  answeredEarly.dropLast ++
    ([.input (.close none),
      .tick, .tick, .ret, .tick, .tick, .ret, .ret] : List Label)

/-- `on_read` goes on to finish the first request of an empty deque. -/
theorem closedInRequest_not_prepared :
    ∃ final next,
      run? {} closedInRequest = some final ∧ ¬ Prepared final ∧
        machine.run? final [.tick, .tick] = some next ∧
        next.fault = some .emptyDeque := by
  refine ⟨_, _, rfl, ?_, rfl, rfl⟩
  intro prepared
  obtain ⟨_, _, nonempty, _⟩ := prepared.finish 0 [] [] rfl (by decide)
  cases nonempty

end UniEventHttp.ServerConnection
