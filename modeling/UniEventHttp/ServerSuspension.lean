import UniEventHttp.ServerReceiving

namespace UniEventHttp.ServerConnection

/-!
# Suspended operations

`finish_request` and `drop_requests` call the application in the middle of their
work: a request has left the deque, and what is done with the next one is decided
after the callback.  If the application gives or completes the response of the
first request in such a callback, it enters `write_next_response` below a
suspended one.  Where it does not, only the code of closing and dropping runs
above a suspended operation.
-/

/-- The frame waits for a callback in the middle of its work on the deque. -/
def isWindow : Frame → Bool
  | .finishReturn => true
  | .dropRequests _ _ => true
  | _ => false

/-- An operation on the deque is suspended. -/
def suspended (stack : List Frame) : Bool :=
  stack.any isWindow

/-- The frames that occur above a suspended operation. -/
def isCalm : Frame → Bool
  | .callback _ => true
  | .fire _ => true
  | .dropRequests _ (.doClose _) => true
  | .dropNotify _ _ => true
  | .upgradeReturn => true
  | _ => false

/-- Only calm frames lie above a suspended operation. -/
def CalmAbove : List Frame → Prop
  | [] => True
  | frame :: below =>
      (suspended below = true → isCalm frame = true) ∧ CalmAbove below

/-- The shape of the stack while no response is given inside an operation. -/
structure Layered (stack : List Frame) : Prop where
  calmAbove : CalmAbove stack
  writeOnTop : Frame.writeNextResponse ∉ stack.tail

/-- The request whose response a call gives or completes. -/
def responseCall? : Label → Option Nat
  | .input (.respond req _) => some req
  | .input (.sendFinalChunk req _) => some req
  | _ => none

/--
The response of the first request is not given or completed in a callback of a
suspended operation.
-/
def NoNestedResponse (config : Config) (label : Label) : Prop :=
  ∀ req ∈ responseCall? label,
    suspended config.stack = true → config.state.requests.head? ≠ some req

instance (config : Config) (label : Label) :
    Decidable (NoNestedResponse config label) :=
  inferInstanceAs (Decidable (∀ req ∈ responseCall? label, _))

@[simp] theorem suspended_append (above below : List Frame) :
    suspended (above ++ below) = (suspended above || suspended below) := by
  simp [suspended]

@[simp] theorem suspended_cons (frame : Frame) (below : List Frame) :
    suspended (frame :: below) = (isWindow frame || suspended below) := rfl

@[simp] theorem suspended_nil : suspended [] = false := rfl

theorem noReturn_of_free
    {stack : List Frame}
    (free : suspended stack = false) :
    Frame.finishReturn ∉ stack := by
  intro member
  have isSuspended : suspended stack = true := by
    simp only [suspended, List.any_eq_true]
    exact ⟨_, member, rfl⟩
  simp [free] at isSuspended

theorem CalmAbove.below
    {above below : List Frame}
    (calmAbove : CalmAbove (above ++ below)) :
    CalmAbove below := by
  induction above with
  | nil =>
      exact calmAbove
  | cons frame rest inductionHypothesis =>
      exact inductionHypothesis calmAbove.2

/-- Calm frames may be put on every stack. -/
theorem CalmAbove.calm
    {frames below : List Frame}
    (calmAbove : CalmAbove below)
    (calm : ∀ frame ∈ frames, isCalm frame = true) :
    CalmAbove (frames ++ below) := by
  induction frames with
  | nil =>
      exact calmAbove
  | cons frame rest inductionHypothesis =>
      refine ⟨fun _ => calm frame (by simp), inductionHypothesis ?_⟩
      intro other member
      exact calm other (List.mem_cons_of_mem _ member)

/-- Where nothing is suspended every layered stack may be put on top. -/
theorem CalmAbove.fresh
    {frames below : List Frame}
    (calmAbove : CalmAbove below)
    (notSuspended : suspended below = false)
    (framesCalm : CalmAbove frames) :
    CalmAbove (frames ++ below) := by
  induction frames with
  | nil =>
      exact calmAbove
  | cons frame rest inductionHypothesis =>
      refine ⟨?_, inductionHypothesis framesCalm.2⟩
      intro isSuspended
      apply framesCalm.1
      simpa [notSuspended] using isSuspended

/-- Below a frame that is not calm nothing is suspended. -/
theorem Layered.not_suspended
    {frame : Frame}
    {below : List Frame}
    (layered : Layered (frame :: below))
    (busy : isCalm frame = false) :
    suspended below = false := by
  cases isSuspended : suspended below with
  | false =>
      rfl
  | true =>
      have calm := layered.calmAbove.1 isSuspended
      simp [busy] at calm

/-- Calm frames take the place of the top frames. -/
theorem Layered.calm
    {frames below : List Frame}
    (top : List Frame)
    (layered : Layered (top ++ below))
    (notWriting : Frame.writeNextResponse ∉ below)
    (calm : ∀ frame ∈ frames, isCalm frame = true) :
    Layered (frames ++ below) where
  calmAbove := layered.calmAbove.below.calm calm
  writeOnTop member := by
    rcases List.mem_append.mp (List.mem_of_mem_tail member) with
      inFrames | inBelow
    · have := calm _ inFrames
      simp [isCalm] at this
    · exact notWriting inBelow

/-- Any layered frames take the place of a frame that is not calm. -/
theorem Layered.busy
    {frame : Frame}
    {frames below : List Frame}
    (layered : Layered (frame :: below))
    (busy : isCalm frame = false)
    (framesCalm : CalmAbove frames)
    (onTop : Frame.writeNextResponse ∉ frames.tail) :
    Layered (frames ++ below) where
  calmAbove :=
    layered.calmAbove.2.fresh (layered.not_suspended busy) framesCalm
  writeOnTop := by
    have notBelow : Frame.writeNextResponse ∉ below := layered.writeOnTop
    cases frames with
    | nil =>
        exact fun member => notBelow (List.mem_of_mem_tail member)
    | cons first others =>
        simpa using ⟨onTop, notBelow⟩

theorem plainFrame_calm
    {frame : Frame}
    (plain : isPlainFrame frame = true) :
    isCalm frame = true := by
  unfold isPlainFrame at plain
  split at plain <;> simp_all [isCalm]

theorem Layered.tick
    {frame : Frame}
    {rest frames : List Frame}
    {c next : ServerConnection}
    (layered : Layered (frame :: rest))
    (executed : code frame c = .next next frames) :
    Layered (frames ++ rest) := by
  have notBelow : Frame.writeNextResponse ∉ rest := layered.writeOnTop
  have plain :
      PlainStep c (.next next frames) →
      Layered (frames ++ rest) := by
    intro plain
    exact layered.calm [_] notBelow
      fun other member => plainFrame_calm (plain.2 other member)
  cases frame with
  | onRead buf =>
      cases buf with
      | nil =>
          cases executed
          exact layered.calm [_] notBelow (by simp)
      | cons result others =>
          obtain ⟨parsed, req, _, reads⟩ := onReadLoop_next executed
          cases reads <;>
            exact layered.busy rfl (by simp [CalmAbove, isCalm, isWindow])
              (by simp)
  | routed req done buf =>
      simp only [code, routed] at executed
      split at executed
      · cases executed
        exact layered.busy rfl (by simp [CalmAbove, isCalm, isWindow])
          (by simp)
      · split at executed <;> cases executed <;>
          exact layered.busy rfl (by simp [CalmAbove, isCalm, isWindow])
            (by simp)
  | received req done buf =>
      simp only [code, received] at executed
      split at executed
      · cases executed
        exact layered.busy rfl (by simp [CalmAbove]) (by simp)
      · split at executed
        · cases executed
          exact layered.busy rfl (by simp [CalmAbove, isWindow])
            (by simp)
        · split at executed <;> cases executed
          · exact layered.calm [_] notBelow (by simp)
          · exact layered.busy rfl (by simp [CalmAbove]) (by simp)
  | requestError req error =>
      cases executed
      exact layered.busy rfl (by simp [CalmAbove, isCalm]) (by simp)
  | requestErrorReturn req =>
      simp only [code, requestErrorReturn] at executed
      split at executed
      · obtain ⟨_, _, _, front, others, _, ⟨_, rfl⟩ | ⟨_, rfl⟩⟩ :=
          respond_next executed
        · exact layered.busy rfl (by simp [CalmAbove]) (by simp)
        · exact layered.calm [_] notBelow (by simp)
      · split at executed <;> cases executed <;>
          exact layered.calm [_] notBelow (by simp)
  | writeNextResponse =>
      obtain ⟨req, others, given, _, _, outcome⟩ :=
        writeNextResponse_next executed
      cases outcome with
      | finish _ _ =>
          exact layered.busy rfl (by simp [CalmAbove]) (by simp)
      | flush _ _ =>
          exact layered.calm [_] notBelow (by simp)
      | hold _ =>
          exact layered.busy rfl (by simp [CalmAbove]) (by simp)
  | finishRequest =>
      obtain ⟨req, others, _, _, ⟨_, _, rfl⟩ | ⟨_, _, rfl⟩⟩ :=
        finishRequest_next executed
      · exact layered.calm [_] notBelow (by simp)
      · exact layered.busy rfl (by simp [CalmAbove, isCalm]) (by simp)
  | finishReturn =>
      rcases finishReturn_plain executed with isPlain | ⟨_, _, _, rfl⟩
      · exact plain isPlain
      · exact layered.busy rfl (by simp [CalmAbove]) (by simp)
  | dropRequests error returns =>
      simp only [code, dropRequests] at executed
      split at executed
      · rename_i req others _
        cases executed
        change
          Layered
            ([.fire (.finishEvent req), .dropNotify req error] ++
              .dropRequests error returns :: rest)
        exact layered.calm [] (by simpa using notBelow) (by simp [isCalm])
      · split at executed
        · cases executed
          exact layered.calm [_] notBelow (by simp)
        · cases executed
          exact layered.calm [_] notBelow (by simp [isCalm])
        · unfold flushResponse at executed
          split at executed <;> cases executed
          · exact layered.busy rfl (by simp [CalmAbove]) (by simp)
          · exact layered.calm [_] notBelow (by simp)
  | _ =>
      apply plain
      rw [← executed]
      exact plain_code c rfl

theorem notWriting_of_boundary
    {stack : List Frame}
    (boundary : machine.atBoundary stack = true)
    (onTop : Frame.writeNextResponse ∉ stack.tail) :
    Frame.writeNextResponse ∉ stack := by
  cases stack with
  | nil =>
      simp
  | cons frame rest =>
      intro member
      rcases List.mem_cons.mp member with same | below
      · subst frame
        simp [CallMachine.Machine.atBoundary, machine, isCallback] at boundary
      · exact onTop below

theorem Layered.input
    {input : Input}
    {stack frames : List Frame}
    {c next : ServerConnection}
    (layered : Layered stack)
    (boundary : machine.atBoundary stack = true)
    (permitted : NoNestedResponse ⟨c, stack, none⟩ (.input input))
    (accepted : accept input stack.head? c = some (.next next frames)) :
    Layered (frames ++ stack) := by
  have notWriting := notWriting_of_boundary boundary layered.writeOnTop
  have calm :
      (∀ frame ∈ frames, isCalm frame = true) →
      Layered (frames ++ stack) :=
    layered.calm [] notWriting
  -- a call that goes on with the pipeline is made outside of every operation
  have single :
      ∀ frame,
        frames = [frame] →
        suspended stack = false →
        Layered (frames ++ stack) := by
    rintro frame rfl notSuspended
    exact
      { calmAbove :=
          layered.calmAbove.fresh notSuspended (by simp [CalmAbove])
        writeOnTop := by simpa using notWriting }
  cases input with
  | respond req response =>
      simp only [accept] at accepted
      split at accepted
      · cases accepted
      · simp only [Option.some.injEq, requestRespond] at accepted
        split at accepted
        · obtain ⟨_, _, _, front, rest, shape, outcome⟩ :=
            respond_next accepted
          rcases outcome with ⟨isFront, isWrite⟩ | ⟨_, rfl⟩
          · apply single _ isWrite
            by_contra isSuspended
            exact permitted req rfl (by simpa using isSuspended)
              (by simp [shape, isFront])
          · exact calm (by simp)
        · cases accepted
          exact calm (by simp)
  | sendContinue req =>
      simp only [accept, Option.some.injEq, requestSendContinue,
        sendContinue] at accepted
      split at accepted
      · split at accepted
        · cases accepted
        · split at accepted
          · cases accepted
            exact calm (by simp)
          · split at accepted
            · cases accepted
              exact calm (by simp)
            · split at accepted
              · cases accepted
              · cases accepted
                exact calm (by simp)
      · cases accepted
        exact calm (by simp)
  | sendChunk req data =>
      simp only [accept, Option.some.injEq] at accepted
      rcases responseSend_next accepted with
        ⟨_, rfl⟩ | ⟨response, _, _, sent⟩
      · exact calm (by simp)
      · simp only [sendChunk] at sent
        split at sent
        · cases sent
        · split at sent
          · cases sent
            exact calm (by simp)
          · split at sent <;> cases sent <;> exact calm (by simp)
  | sendFinalChunk req data =>
      simp only [accept, Option.some.injEq] at accepted
      rcases responseSend_next accepted with
        ⟨_, rfl⟩ | ⟨response, _, _, sent⟩
      · exact calm (by simp)
      · simp only [sendFinalChunk] at sent
        split at sent
        · cases sent
        · rename_i front rest shape
          have deque : c.requests = front :: rest := shape
          split at sent
          · rename_i isFront
            cases sent
            apply single _ rfl
            by_contra isSuspended
            exact permitted req rfl (by simpa using isSuspended)
              (by simp [deque, isFront])
          · cases sent
            exact calm (by simp)
  | upgrade req =>
      simp only [accept, Option.some.injEq, requestUpgrade] at accepted
      split at accepted
      · cases accepted
        exact calm (by simp)
      · split at accepted
        · cases accepted
          exact calm (by simp)
        · unfold ServerConnection.upgrade at accepted
          split at accepted <;> cases accepted
          exact calm (by simp [isCalm])
  | enablePartial req =>
      cases accepted
      exact calm (by simp)
  | gracefulStop =>
      simp only [accept, Option.some.injEq, gracefulStop] at accepted
      split at accepted <;> cases accepted
      · exact calm (by simp [isCalm])
      · exact calm (by simp)
  | onRead buf =>
      cases stack with
      | nil =>
          simp only [List.head?_nil, accept] at accepted
          split at accepted <;> cases accepted
          exact single _ rfl rfl
      | cons frame rest =>
          simp [accept] at accepted
  | onReadError error =>
      cases stack with
      | nil =>
          simp only [List.head?_nil, accept] at accepted
          split at accepted
          · simp only [Option.some.injEq] at accepted
            obtain ⟨req, isError, _⟩ := onReadError_next accepted
            exact single _ isError rfl
          · cases accepted
      | cons frame rest =>
          simp [accept] at accepted
  | _ =>
      have plain := plain_accept rfl accepted
      exact calm fun frame member => plainFrame_calm (plain.2 frame member)

theorem Layered.ret
    {fired : Callback}
    {rest : List Frame}
    (layered : Layered (.callback fired :: rest)) :
    Layered rest where
  calmAbove := layered.calmAbove.2
  writeOnTop member := layered.writeOnTop (List.mem_of_mem_tail member)

theorem layered_nil : Layered [] where
  calmAbove := trivial
  writeOnTop := by simp

end UniEventHttp.ServerConnection
