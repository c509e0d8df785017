import UniEventHttp.ClientActs

namespace UniEventHttp.ClientSide.World

/-!
# The end of a submission is told

`finish_and_notify` ends a submission and then fires `partial_event` and
`response_event`.  Nothing else ends a submission or fires `response_event`, so
as long as no callback is left by an exception every end is told once.
-/

/-- The response event of the request is fired. -/
def isAnswer (r : Nat) : Event → Bool
  | .fired (.responseEvent s _ _) => s == r
  | _ => false

/-- The response event of the request is about to be fired. -/
def isNotice (r : Nat) : Frame → Bool
  | .fire (.responseEvent s _ _) => s == r
  | _ => false

/-! ## Code without an end -/

/-- The end of a submission, and the event that tells it. -/
def isNews : Event → Bool
  | .finished _ => true
  | .fired (.responseEvent _ _ _) => true
  | _ => false

/-- Nothing ends and no end is told. -/
structure Hushed (w next : World) : Prop where
  answered :
    ∀ r, next.trace.countP (isAnswer r) = w.trace.countP (isAnswer r)
  finished : ∀ r, next.trace.count (.finished r) = w.trace.count (.finished r)

namespace Hushed

variable {w next third : World}

theorem refl (w : World) : Hushed w w :=
  ⟨fun _ => rfl, fun _ => rfl⟩

theorem trans
    (one : Hushed w next)
    (two : Hushed next third) :
    Hushed w third :=
  ⟨fun r => (two.answered r).trans (one.answered r),
    fun r => (two.finished r).trans (one.finished r)⟩

theorem of_events
    {events : List Event}
    (trace : next.trace = w.trace ++ events)
    (hushed : ∀ event ∈ events, isNews event = false) :
    Hushed w next := by
  refine ⟨fun r => ?_, fun r => ?_⟩
  · rw [trace, List.countP_append, Nat.add_eq_left, List.countP_eq_zero]
    intro event member isAnswer
    have notNews := hushed event member
    unfold World.isAnswer at isAnswer
    split at isAnswer
    · cases notNews
    · cases isAnswer
  · rw [trace, List.count_append, Nat.add_eq_left, List.count_eq_zero]
    intro member
    cases hushed _ member

theorem same (trace : next.trace = w.trace) : Hushed w next :=
  of_events (trace.trans (List.append_nil _).symm) (by simp)

theorem emit
    (w : World)
    {event : Event}
    (hushed : isNews event = false) :
    Hushed w (w.emit event) :=
  of_events rfl (by simpa using hushed)

theorem wroteOn
    {c : Nat}
    {connection : Option Nat}
    {pieces : List Piece} :
    ∀ event ∈ pieces.flatMap (wroteOn c connection), isNews event = false := by
  intro event member
  simp only [World.wroteOn, List.mem_flatMap, List.mem_map] at member
  obtain ⟨_, _, _, _, rfl⟩ := member
  rfl

theorem of_sends
    {c r : Nat}
    (sends : Sends w c r next) :
    Hushed w next := by
  obtain ⟨_, _, _, _, _, rfl, _⟩ := sends
  exact of_events rfl wroteOn

theorem write (w : World) (c : Nat) (piece : Piece) :
    Hushed w (w.write c piece) := by
  unfold World.write
  dsimp only
  split
  · exact same rfl
  · exact of_events rfl (by simp [isNews])

theorem started
    {c r : Nat}
    (started : Started w c r next) :
    Hushed w next := by
  obtain ⟨tcp, opening, pieces, connects, _, _, trace, _⟩ := started.connects
  rw [List.append_assoc] at trace
  refine of_events trace ?_
  intro event member
  simp only [List.mem_append, List.mem_cons] at member
  rcases member with isOpening | rfl | isHead | isPiece
  · cases connects with
    | reuses _ _ _ =>
        cases isOpening
    | opens _ _ _ _ _ _ =>
        rw [List.mem_singleton] at isOpening
        subst isOpening
        rfl
  · rfl
  · simp only [World.wroteOn, List.mem_map] at isHead
    obtain ⟨_, _, rfl⟩ := isHead
    rfl
  · exact wroteOn event isPiece

theorem refused
    {c r : Nat}
    (refused : Refused w c r next) :
    Hushed w next := by
  obtain ⟨exception, trace⟩ := refused.trace
  exact of_events trace (by simp [isNews])

theorem putsBack
    {p c : Nat}
    (back : PutsBack w p c next) :
    Hushed w next := by
  cases back with
  | starts _ _ isStarted =>
      refine Hushed.trans ?_ (started isStarted)
      exact same rfl
  | frees _ _ _ =>
      exact same rfl

theorem pooled
    {p r : Nat}
    (pooled : Pooled w p r next) :
    Hushed w next := by
  cases pooled with
  | starts places isStarted =>
      refine Hushed.trans (same ?_) (started isStarted)
      cases places <;> rfl
  | queues _ _ _ =>
      exact of_events rfl (by simp [isNews])

theorem poolRefuses
    {p r : Nat}
    (refuses : PoolRefuses w p r next) :
    Hushed w next := by
  cases refuses with
  | early exception =>
      exact emit w rfl
  | late isPooled places isRefused =>
      subst isPooled
      refine Hushed.trans (same ?_) (refused isRefused)
      cases places <;> rfl

end Hushed

/-- Code that calls no application code ends nothing and tells nothing. -/
def Hushes (w : World) (straight : Straight) : Prop :=
  straight.Post (Hushed w) (Hushed w) fun _ => True

theorem Hushes.after
    {w middle : World}
    {straight : Straight}
    (hushes : Hushes middle straight)
    (hushed : Hushed w middle) :
    Hushes w straight :=
  hushes.imp (fun _ => hushed.trans) (fun _ => hushed.trans) fun _ => id

theorem Hushes.andThen
    {w : World}
    {straight : Straight}
    {second : World → Straight}
    (hushes : Hushes w straight)
    (next : ∀ middle, Hushes middle (second middle)) :
    Hushes w (straight.andThen second) :=
  Straight.Post.andThen hushes fun middle hushed => (next middle).after hushed

theorem clientRequest_hushes (w : World) (c r : Nat) :
    Hushes w (w.clientRequest c r) :=
  (clientRequest_post w c r).imp (fun _ => .started) (fun _ => .refused)
    fun _ _ => trivial

theorem putback_hushes (w : World) (p c : Nat) : Hushes w (w.putback p c) := by
  refine (putback_post w p c).imp (fun _ => .putsBack) ?_ fun _ _ => trivial
  rintro next ⟨_, _, _, _, _, refused⟩
  refine Hushed.trans ?_ (.refused refused)
  exact .same rfl

theorem poolRequest_hushes (w : World) (p r : Nat) :
    Hushes w (w.poolRequest p r) := by
  refine (poolRequest_post w p r).imp ?_
    (fun _ refused => .poolRefuses (.of_post refused)) fun _ _ => trivial
  rintro next ⟨_, pooled⟩
  refine Hushed.trans ?_ (.pooled pooled)
  exact .same rfl

theorem agentRequest_hushes
    (w : World)
    (a r : Nat)
    (contextUri : Uri)
    (topLevel : Bool) :
    Hushes w (w.agentRequest a r contextUri topLevel) := by
  unfold agentRequest
  dsimp only
  split
  · trivial
  · refine (poolRequest_hushes _ _ r).after ?_
    exact Hushed.of_events rfl (by simp [isNews])

theorem sendForm_hushes (w : World) (c : Nat) : Hushes w (w.sendForm c) := by
  cases active : (w.clients c).request with
  | none =>
      unfold sendForm
      rw [active]
      trivial
  | some r =>
      exact (sendForm_post w c r active).imp (fun _ => .of_sends)
        (fun _ => False.elim) fun _ _ => trivial

theorem stopForm_hushes (w : World) (c r : Nat) : Hushes w (w.stopForm c r) := by
  unfold stopForm
  dsimp only
  split
  · exact Hushed.refl w
  · split
    · trivial
    · split
      · trivial
      · exact Hushed.same rfl
    · exact Hushed.same rfl

theorem releaseClient_hushes
    (w : World)
    (c r : Nat)
    (response : Option Response)
    (error : Option ErrorCode) :
    Hushes w (w.releaseClient c r response error) := by
  obtain ⟨drops, released⟩ := releaseClient_cases w c r response error
  rw [released]
  refine Hushes.andThen ?_ fun next => ?_
  · refine (stopForm_hushes _ c r).after ?_
    split_ifs
    · exact Hushed.same rfl
    · exact Hushed.same rfl
  · split
    · exact Hushed.same rfl
    · exact (putback_hushes _ _ c).after (.same rfl)

theorem followRedirect_hushes
    (w : World)
    (c r : Nat)
    (response : Response) :
    Hushes w (w.followRedirect c r response) := by
  have hops : Hushed w (w.hopping c r response) := by
    rw [hopping_eq]
    split
    · exact .same rfl
    · exact .same rfl
  unfold followRedirect
  dsimp only
  split
  · exact (clientRequest_hushes _ c r).after hops
  · split
    · refine Hushes.andThen
        ((putback_hushes _ _ c).after (hops.trans (.same rfl))) fun next => ?_
      exact (poolRequest_hushes _ _ r).after (.same rfl)
    · exact (clientRequest_hushes _ c r).after hops

/-! ## Ends and their notices -/

/-- Every end of a submission has a frame that is about to tell it. -/
structure Notifies (w next : World) (frames : List Frame) : Prop where
  answered :
    ∀ r, next.trace.countP (isAnswer r) = w.trace.countP (isAnswer r)
  finished :
    ∀ r,
      next.trace.count (.finished r) =
        w.trace.count (.finished r) + frames.countP (isNotice r)

/-- The same of a step that goes on; an exception ends nothing and tells nothing. -/
def Told (w : World) (step : Step) : Prop :=
  ∀ next frames, step = .next next frames → Notifies w next frames

namespace Told

variable {w middle : World} {step : Step}

theorem fault {reason : Fault} : Told w (.fault reason) := by
  rintro next frames ⟨⟩

theorem raise : Told w (.raise middle) := by
  rintro next frames ⟨⟩

theorem after
    (told : Told middle step)
    (hushed : Hushed w middle) :
    Told w step := by
  intro next frames executed
  have notifies := told next frames executed
  exact ⟨fun r => (notifies.answered r).trans (hushed.answered r),
    fun r => by rw [notifies.finished, hushed.finished]⟩

/-- Frames without a notice are pushed. -/
theorem goes
    {frames : List Frame}
    (hushed : Hushed w middle)
    (silent : ∀ r, frames.countP (isNotice r) = 0) :
    Told w (.next middle frames) := by
  rintro next pushed ⟨⟩
  exact ⟨hushed.answered, fun r => by rw [hushed.finished, silent, Nat.add_zero]⟩

theorem before
    {straight : Straight}
    {second : World → Step}
    (hushes : Hushes w straight)
    (next : ∀ middle, Told middle (second middle)) :
    Told w (straight.before second) := by
  intro final frames executed
  obtain ⟨middle, rfl, goesOn⟩ := Straight.before_next executed
  exact ((next middle).after hushes) final frames goesOn

theorem andFrames
    {frames : List Frame}
    (told : Told w step)
    (silent : ∀ r, frames.countP (isNotice r) = 0) :
    Told w (andFrames step frames) := by
  intro final all executed
  obtain ⟨first, isNext, rfl⟩ := andFrames_next executed
  have notifies := told final first isNext
  exact ⟨notifies.answered, fun r => by
    rw [notifies.finished, List.countP_append, silent, Nat.add_zero]⟩

end Told

theorem finishAndNotify_told
    (w : World)
    (r : Nat)
    (response : Option Response)
    (error : Option ErrorCode) :
    Told w (w.finishAndNotify r response error) := by
  rintro next frames ⟨⟩
  refine ⟨fun s => ?_, fun s => ?_⟩
  · simp [World.emit, World.setRequest, isAnswer]
  · simp [World.emit, World.setRequest, isNotice, List.count_singleton,
      List.countP_cons]

theorem finishRequest_told (w : World) (c : Nat) (error : Option ErrorCode) :
    Told w (w.finishRequest c error) := by
  unfold finishRequest
  split
  · exact .fault
  · dsimp only
    split
    · exact .fault
    · exact .before ((releaseClient_hushes _ c _ _ _).after (.same rfl))
        fun middle => finishAndNotify_told middle _ _ _

theorem cancel_told (w : World) (c : Nat) (error : Option ErrorCode) :
    Told w (w.cancel c error) := by
  unfold cancel
  dsimp only
  split
  · exact .goes (.refl w) fun _ => rfl
  · exact (finishRequest_told _ c error).after (.same rfl)

theorem cancelRequest_told (w : World) (p r : Nat) (error : Option ErrorCode) :
    Told w (w.cancelRequest p r error) := by
  unfold cancelRequest
  dsimp only
  split
  · exact .fault
  · split
    · exact .fault
    · exact .andFrames (finishAndNotify_told w r none error) fun _ => rfl

theorem analyzeRequest_told (w : World) (c : Nat) :
    Told w (w.analyzeRequest c) := by
  unfold analyzeRequest
  dsimp only
  split
  · exact .fault
  · exact .fault
  · split
    · exact .goes (.refl w) fun _ => rfl
    · split
      · split
        · exact cancel_told w c _
        · split
          · exact (cancel_told _ c _).after (.same rfl)
          · split
            · exact (cancel_told _ c _).after (.same rfl)
            · exact .goes (.same rfl) fun _ => rfl
      · exact finishRequest_told w c none

theorem redirected_told (w : World) (c : Nat) : Told w (w.redirected c) := by
  unfold redirected
  dsimp only
  split
  · exact .goes (.same rfl) fun _ => rfl
  · split
    · exact .fault
    · exact .fault
    · refine .before ((followRedirect_hushes _ c _ _).after ?_)
        fun middle => .goes (.refl middle) fun _ => rfl
      split
      · exact .same rfl
      · exact .same rfl

theorem receivePart_told (w : World) (c : Nat) (response : Response) :
    Told w (w.receivePart c response) := by
  unfold receivePart
  split
  · exact .goes (.refl w) fun _ => rfl
  · split
    · exact .fault
    · split
      · exact .goes (.refl w) fun _ => rfl
      · exact .goes (.refl w) fun _ => rfl

theorem onReadLoop_told (w : World) (c buffer : Nat) (buf : List Parsed) :
    Told w (w.onReadLoop c buffer buf) := by
  cases buf with
  | nil =>
      exact .goes (.refl w) fun _ => rfl
  | cons result rest =>
      simp only [onReadLoop]
      split
      · exact .goes (.same rfl) fun _ => rfl
      · rename_i context _
        have parsed : Hushed w (w.parseShift c buffer context result) :=
          Hushed.of_events rfl (by simp [isNews])
        cases result with
        | error error _ =>
            exact (cancel_told _ c _).after parsed
        | headers =>
            exact .goes parsed fun _ => rfl
        | body _ =>
            exact (receivePart_told _ c _).after parsed
        | done _ =>
            exact ((analyzeRequest_told _ c).andFrames fun _ => rfl).after parsed

theorem onEof_told
    (w : World)
    (c : Nat)
    (error : Option ErrorCode)
    (response : Response) :
    Told w (w.onEof c error response) := by
  unfold onEof
  dsimp only
  split
  · exact .goes (.same rfl) fun _ => rfl
  · exact .fault
  · split
    · exact (cancel_told _ c _).after (.same rfl)
    · exact (analyzeRequest_told _ c).after (.same rfl)

theorem formFileComplete_told
    (w : World)
    (c : Nat)
    (error : Option ErrorCode) :
    Told w (w.formFileComplete c error) := by
  unfold formFileComplete
  split
  · exact finishRequest_told w c _
  · exact .before ((sendForm_hushes _ c).after (.same rfl))
      fun middle => .goes (.refl middle) fun _ => rfl

theorem onTimer_told (w : World) (r : Nat) : Told w (w.onTimer r) := by
  unfold onTimer
  dsimp only
  split
  · exact cancel_told w _ _
  · exact cancelRequest_told w _ r _
  · exact .goes (.refl w) fun _ => rfl

/-- Every frame that does not fire an event. -/
theorem code_told
    (w : World)
    (frame : Frame)
    (quiet : ∀ callback, frame ≠ .fire callback) :
    Told w (code frame w) := by
  cases frame with
  | callback callback =>
      exact .goes (.refl w) fun _ => rfl
  | fire callback =>
      exact (quiet callback rfl).elim
  | agentResponse a r response error =>
      refine .goes ?_ fun _ => rfl
      unfold agentResponse
      split
      · exact Hushed.refl w
      · exact Hushed.of_events rfl (by simp [isNews])
  | agentRedirect a contextUri topLevel c context =>
      obtain ⟨reason, _, faults⟩ | ⟨response, r, _, _, acts⟩ :=
        code_agentRedirect w a contextUri topLevel c context
      · rw [faults]
        exact .fault
      · rw [acts]
        have collects : Hushed w (w.collect a response.cookies context.uri) :=
          .of_events rfl (by simp [isNews])
        exact .goes (collects.trans (.of_events rfl (by simp [isNews])))
          fun _ => rfl
  | onRead c buffer buf =>
      exact onReadLoop_told w c buffer buf
  | continued c =>
      exact .goes (.same rfl) fun _ => rfl
  | redirected c =>
      exact redirected_told w c
  | redirectCatch c =>
      refine Told.andFrames ?_ fun _ => rfl
      exact (cancel_told _ c _).after (.same rfl)
  | rethrow =>
      exact .raise
  | cancelReturn p key ticket generation =>
      change Told w (w.cancelReturn p key ticket generation)
      unfold cancelReturn
      dsimp only
      split
      · exact .fault
      · split
        · exact .goes (.same rfl) fun _ => rfl
        · exact .fault

theorem requestSend_told
    {w : World}
    (r : Nat)
    {send : Nat → Step}
    (sends : ∀ c, Told w (send c)) :
    Told w (w.requestSend r send) := by
  unfold requestSend
  dsimp only
  split
  · exact .raise
  · split
    · exact .raise
    · split
      · exact sends _
      · exact .fault

/-- A submission of the application tells nothing. -/
theorem submits_told
    {w : World}
    {straight : Straight}
    (pool : Option Nat)
    (loop r : Nat)
    (hushes : Hushes w straight) :
    Told w (straight.before (acceptedOn pool loop r)) :=
  .before hushes fun middle => .goes (.emit middle rfl) fun _ => rfl

/-- Every call and every event. -/
theorem accept_told
    {w : World}
    {input : Input}
    {top : Option Frame}
    {outcome : Step}
    (accepted : accept input top w = some outcome) :
    Told w outcome := by
  cases input with
  | edit r fields =>
      simp only [accept] at accepted
      split at accepted <;> cases accepted
      exact .goes (.same rfl) fun _ => rfl
  | listen r =>
      cases top <;> simp only [accept, reduceCtorEq] at accepted
      cases accepted
      exact .goes (.same rfl) fun _ => rfl
  | newClient loop =>
      cases accepted
      exact .goes (.same rfl) fun _ => rfl
  | clientRequest c r =>
      simp only [accept] at accepted
      split at accepted <;> cases accepted
      exact submits_told _ _ r (clientRequest_hushes w c r)
  | poolRequest p r =>
      cases accepted
      exact submits_told _ _ r (poolRequest_hushes w p r)
  | agentRequest a r contextUri topLevel =>
      cases accepted
      exact submits_told _ _ r (agentRequest_hushes w a r contextUri topLevel)
  | cancel r error =>
      cases accepted
      unfold requestCancel
      dsimp only
      split
      · exact cancel_told w _ error
      · exact cancelRequest_told w _ r error
      · exact .goes (.refl w) fun _ => rfl
  | clientCancel c error =>
      cases accepted
      exact cancel_told w c error
  | sendChunk r data =>
      cases accepted
      refine requestSend_told r fun c => ?_
      split
      · exact .goes (.refl w) fun _ => rfl
      · exact .goes (.write w c _) fun _ => rfl
  | sendFinalChunk r data =>
      cases accepted
      refine requestSend_told r fun c => .goes ?_ fun _ => rfl
      refine Hushed.trans ?_ (.write _ c _)
      exact .same rfl
  | maxConnections p value =>
      cases accepted
      exact .goes (.same rfl) fun _ => rfl
  | advance loop milliseconds =>
      cases top <;> simp only [accept, reduceCtorEq] at accepted
      cases accepted
      exact .goes (.same rfl) fun _ => rfl
  | onConnect c error | onWrite c error =>
      cases top <;> simp only [accept, reduceCtorEq] at accepted
      split at accepted
      · split at accepted <;> cases accepted
        · exact .goes (.same rfl) fun _ => rfl
        · exact (cancel_told _ c _).after (.same rfl)
      · cases accepted
  | onRead c buf =>
      cases top <;> simp only [accept, reduceCtorEq] at accepted
      split at accepted <;> cases accepted
      exact .goes (.of_events rfl (by simp [isNews])) fun _ => rfl
  | onReadError c error =>
      cases top <;> simp only [accept, reduceCtorEq] at accepted
      split at accepted <;> cases accepted
      exact cancel_told w c _
  | onEof c error response =>
      cases top <;> simp only [accept, reduceCtorEq] at accepted
      split at accepted <;> cases accepted
      exact (onEof_told _ c error response).after
        (.of_events rfl (by simp [isNews]))
  | onTimer r =>
      cases top <;> simp only [accept, reduceCtorEq] at accepted
      split at accepted
      · cases accepted
      · split at accepted
        · cases accepted
        · split at accepted <;> cases accepted
          unfold fireTimer
          dsimp only
          split
          · exact (onTimer_told _ r).after (.same rfl)
          · exact .goes (.same rfl) fun _ => rfl
  | streamData r item data =>
      cases top <;> simp only [accept, reduceCtorEq] at accepted
      split at accepted <;> cases accepted
      exact .goes (.write w _ _) fun _ => rfl
  | streamFinish r item error =>
      cases top <;> simp only [accept, reduceCtorEq] at accepted
      split at accepted <;> cases accepted
      exact (formFileComplete_told _ _ error).after (.same rfl)
  | checkInactivity p =>
      cases top <;> simp only [accept, reduceCtorEq] at accepted
      split at accepted <;> cases accepted
      exact .goes (.same rfl) fun _ => rfl

/-- The calls that may throw an exception at the application, which has to expect it. -/
def mayRefuse : Input → Bool
  | .clientRequest _ _ => true
  | .poolRequest _ _ => true
  | .agentRequest _ _ _ _ => true
  | .sendChunk _ _ => true
  | .sendFinalChunk _ _ => true
  | _ => false

theorem requestSend_raise
    {w next : World}
    {r : Nat}
    {send : Nat → Step}
    (sends : ∀ c, send c ≠ .raise next)
    (executed : w.requestSend r send = .raise next) :
    ∃ exception, next = w.emit (.threw exception) := by
  unfold requestSend at executed
  dsimp only at executed
  split at executed
  · cases executed
    exact ⟨_, rfl⟩
  · split at executed
    · cases executed
      exact ⟨_, rfl⟩
    · split at executed
      · exact (sends _ executed).elim
      · cases executed

theorem submits_raise
    {next : World}
    {straight : Straight}
    {pool : Option Nat}
    {loop r : Nat}
    (executed : straight.before (acceptedOn pool loop r) = .raise next) :
    straight = .raise next := by
  rcases Straight.before_raise executed with isRaise | ⟨_, _, goesOn⟩
  · exact isRaise
  · cases goesOn

/-- A call that is refused ends nothing and tells nothing. -/
theorem refused_hushed
    {w next : World}
    {input : Input}
    {top : Option Frame}
    (mayBe : mayRefuse input = true)
    (accepted : accept input top w = some (.raise next)) :
    Hushed w next := by
  have refused :
      ∀ {straight : Straight},
        Hushes w straight → straight = .raise next → Hushed w next := by
    intro straight hushes isRaise
    rw [isRaise] at hushes
    exact hushes
  cases input with
  | clientRequest c r =>
      simp only [accept, Option.ite_none_right_eq_some,
        Option.some.injEq] at accepted
      exact refused (clientRequest_hushes w c r) (submits_raise accepted.2)
  | poolRequest p r =>
      simp only [accept, Option.some.injEq] at accepted
      exact refused (poolRequest_hushes w p r) (submits_raise accepted)
  | agentRequest a r contextUri topLevel =>
      simp only [accept, Option.some.injEq] at accepted
      exact refused (agentRequest_hushes w a r contextUri topLevel)
        (submits_raise accepted)
  | sendChunk r data =>
      simp only [accept, Option.some.injEq] at accepted
      obtain ⟨exception, rfl⟩ := requestSend_raise (fun c => by
        split <;> simp) accepted
      exact .emit w rfl
  | sendFinalChunk r data =>
      simp only [accept, Option.some.injEq] at accepted
      obtain ⟨exception, rfl⟩ := requestSend_raise (fun c => by simp) accepted
      exact .emit w rfl
  | _ =>
      cases mayBe

/-! ## Runs -/

/-- An exception leaves the code. -/
def raises : Step → Bool
  | .raise _ => true
  | _ => false

/-- No exception is thrown but by calls that the code refuses. -/
def KeepsAccounts (config : Config) : Label → Prop
  | .tick =>
      ∀ frame ∈ config.stack.head?, raises (code frame config.state) = false
  | .ret => True
  | .throw => False
  | .input input =>
      mayRefuse input = true ∨
        ∀ outcome ∈ accept input config.stack.head? config.state,
          raises outcome = false

instance (config : Config) (label : Label) :
    Decidable (KeepsAccounts config label) :=
  match label with
  | .tick =>
      inferInstanceAs (Decidable
        (∀ frame ∈ config.stack.head?,
          raises (code frame config.state) = false))
  | .ret => inferInstanceAs (Decidable True)
  | .throw => inferInstanceAs (Decidable False)
  | .input input =>
      inferInstanceAs (Decidable
        (mayRefuse input = true ∨
          ∀ outcome ∈ accept input config.stack.head? config.state,
            raises outcome = false))

/-- Every end of a submission has been told, or is about to be. -/
def Announced (w : World) (stack : List Frame) : Prop :=
  ∀ r,
    w.trace.countP (isAnswer r) + stack.countP (isNotice r) =
      w.trace.count (.finished r)

section Announced

variable {w next : World} {frame : Frame} {frames rest stack : List Frame}

theorem Announced.notifies
    (announced : Announced w rest)
    (notifies : Notifies w next frames) :
    Announced next (frames ++ rest) := by
  intro r
  have before := announced r
  rw [notifies.answered, notifies.finished, List.countP_append]
  omega

theorem Announced.hushed
    (announced : Announced w stack)
    (hushed : Hushed w next) :
    Announced next stack := by
  intro r
  rw [hushed.answered, hushed.finished]
  exact announced r

theorem Announced.drop
    (announced : Announced w (frame :: rest))
    (silent : ∀ r, isNotice r frame = false) :
    Announced w rest := by
  intro r
  have before := announced r
  rwa [List.countP_cons_of_neg (by simp [silent])] at before

theorem countP_listeners (w : World) (callback : Callback) (r : Nat) :
    ((w.listeners callback).map (listenerFrame callback)).countP (isNotice r) =
      0 := by
  rw [List.countP_eq_zero]
  intro frame member
  obtain ⟨listener, _, rfl⟩ := List.mem_map.mp member
  cases listener <;> cases callback <;> simp [listenerFrame, isNotice]

/-- An event is fired; the response event tells the end of a submission. -/
theorem Announced.fire
    {callback : Callback}
    (announced : Announced w (.fire callback :: rest)) :
    Announced (w.emit (.fired callback))
      ((w.listeners callback).map (listenerFrame callback) ++ rest) := by
  intro r
  have before := announced r
  have sameFinished :
      (w.emit (.fired callback)).trace.count (.finished r) =
        w.trace.count (.finished r) := by
    simp [World.emit]
  have isSame : isAnswer r (.fired callback) = isNotice r (.fire callback) := by
    cases callback <;> rfl
  rw [sameFinished, List.countP_append, countP_listeners, ← before]
  simp only [World.emit, List.countP_append, List.countP_cons, List.countP_nil,
    isSame]
  omega

end Announced

/-- In every run without exceptions every end of a submission is told. -/
theorem announced_of_run
    {w : World}
    {labels : List Label}
    {final : Config}
    (fresh : Fresh w)
    (guarded : machine.Guarded KeepsAccounts (start w) labels)
    (ran : run? w labels = some final) :
    Announced final.state final.stack := by
  have preserves : machine.Preserves KeepsAccounts Announced :=
    { tick := fun frame rest state next frames plain permitted announced
          executed => by
        by_cases fires : ∃ callback, frame = .fire callback
        · obtain ⟨callback, rfl⟩ := fires
          cases executed
          exact announced.fire
        · have quiet : ∀ callback, frame ≠ .fire callback :=
            fun callback isFire => fires ⟨callback, isFire⟩
          refine Announced.notifies (announced.drop fun r => ?_)
            (code_told state frame quiet next frames executed)
          cases frame with
          | fire callback => exact (quiet callback rfl).elim
          | _ => rfl
      tickRaise := fun frame rest state next plain permitted announced
          executed => by
        have calm := permitted frame rfl
        change code frame state = .raise next at executed
        simp [executed, raises] at calm
      ret := fun frame rest state isCallback announced =>
        announced.drop fun r => by
          cases frame <;> first | rfl | cases isCallback
      throw := fun frame rest state _ _ permitted _ => permitted.elim
      input := fun input stack state next frames _ _ announced accepted =>
        announced.notifies (accept_told accepted next frames rfl)
      inputRaise := fun input stack state next _ permitted announced
          accepted => by
        rcases permitted with mayBe | never
        · exact announced.hushed (refused_hushed mayBe accepted)
        · have calm := never _ accepted
          cases calm }
  refine preserves.run ?_ guarded ran
  intro r
  simp [start, fresh.trace]

end UniEventHttp.ClientSide.World
