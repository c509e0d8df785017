import UniEventHttp.History
import UniEventHttp.ServerEvents

namespace UniEventHttp.ServerConnection

/-!
# Upgraded connections

`upgrade` hands the stream over to the application, so the connection should not
touch it any more.  It runs inside a callback, and nothing tells the code below
that callback.  The stream is left alone where that code has nothing left to do
and the application does not close the connection itself.
-/

open History

/-! ## What is observed -/

def isUpgrade : Event → Bool
  | .upgraded _ => true
  | _ => false

/-- The stream has been handed over. -/
def Upgraded (c : ServerConnection) : Prop :=
  c.trace.any isUpgrade = true

instance (c : ServerConnection) : Decidable c.Upgraded :=
  inferInstanceAs (Decidable (_ = _))

/--
After an upgrade nothing is parsed or appended, no event is fired but the
`finish_event` of the upgraded request, and the stream is neither written to nor
told to ignore reads, shut down, disconnect or reset.
-/
def Untouched (earlier : List Event) : Event → Prop
  | .newRequest _ => earlier.any isUpgrade = false
  | .appended _ => earlier.any isUpgrade = false
  | .wrote _ => earlier.any isUpgrade = false
  | .readIgnored => earlier.any isUpgrade = false
  | .closed _ => earlier.any isUpgrade = false
  | .fired callback =>
      earlier.any isUpgrade = true →
      ∃ req, Event.upgraded req ∈ earlier ∧ callback = .finishEvent req
  | _ => True

/-- A stream that has been handed over is left alone. -/
def LeftAlone (c : ServerConnection) : Prop :=
  Each Untouched c.trace

/-! ## The condition -/

/-- The frame does not touch the stream when the frames above have returned. -/
def spent (c : ServerConnection) : Frame → Bool
  | .callback _ => true
  | .fire (.finishEvent req) => decide (Event.upgraded req ∈ c.trace)
  | .onRead buf => buf.isEmpty
  | .routed req done buf =>
      !done && !(c.store req).partialMode && buf.isEmpty
  | .received req done buf =>
      buf.isEmpty &&
        (!done ||
          (!(c.store req).finishOnReceive && !c.closing &&
            (c.store req).headers.keepAlive))
  | .finishReturn => !c.closing && !c.stopping
  | .dropRequests _ (.doClose _) => true
  | .upgradeReturn => true
  | _ => false

/-- The request whose loop body goes on after `route_event`. -/
def routes (req : Nat) : Frame → Bool
  | .routed other _ _ => other == req
  | _ => false

/--
An upgrade succeeds when every frame below it is spent; afterwards the
application neither closes the connection nor turns on partial mode for a
request that is being routed.
-/
def HandsOver (config : Config) : Label → Prop
  | .input (.upgrade req) =>
      config.state.Attached req →
      iequals (config.state.store req).headers.connection "upgrade" = true →
      config.state.requests = [req] →
      ∀ frame ∈ config.stack, spent config.state frame = true
  | .input (.close _) => ¬ config.state.Upgraded
  | .input (.shutdown _) => ¬ config.state.Upgraded
  | .input .gracefulStop => ¬ config.state.Upgraded
  | .input (.enablePartial req) =>
      config.state.Upgraded →
      ∀ frame ∈ config.stack, routes req frame = false
  | _ => True

instance (config : Config) (label : Label) :
    Decidable (HandsOver config label) :=
  match label with
  | .input input =>
      match input with
      | .upgrade req =>
          inferInstanceAs (Decidable
            (config.state.Attached req →
              iequals (config.state.store req).headers.connection "upgrade" =
                true →
              config.state.requests = [req] →
              ∀ frame ∈ config.stack, spent config.state frame = true))
      | .close _ | .shutdown _ | .gracefulStop =>
          inferInstanceAs (Decidable (¬ config.state.Upgraded))
      | .enablePartial req =>
          inferInstanceAs (Decidable
            (config.state.Upgraded →
              ∀ frame ∈ config.stack, routes req frame = false))
      | .respond _ _ | .sendContinue _ | .sendChunk _ _ | .sendFinalChunk _ _ |
        .drop _ | .onRead _ | .onReadError _ | .onEof | .onWrite _ | .onShutdown |
        .onConnectionError _ | .idleTimeout =>
          inferInstanceAs (Decidable True)
  | .tick | .ret | .throw =>
      inferInstanceAs (Decidable True)

/-! ## The invariant -/

/-- What holds of a connection whose stream has been handed over. -/
structure Handed (c : ServerConnection) (stack : List Frame) : Prop where
  listener : c.stream.listener = false
  idleTimer : c.idleTimer = none
  requests : c.requests = []
  frames : ∀ frame ∈ stack, spent c frame = true

/-- The invariant of the upgrade. -/
structure Upgrading (c : ServerConnection) (stack : List Frame) : Prop where
  leftAlone : LeftAlone c
  handed : c.Upgraded → Handed c stack

/-- Anything but an upgrade may be observed before an upgrade. -/
theorem leftAlone_before
    {may : Event → Bool}
    {c next : ServerConnection}
    (leftAlone : LeftAlone c)
    (before : ¬ c.Upgraded)
    (noUpgrade : ∀ event, may event = true → isUpgrade event = false)
    (grows : Grows may c.trace next.trace) :
    LeftAlone next ∧ ¬ next.Upgraded := by
  obtain ⟨events, shape, allowed⟩ := grows
  have old : c.trace.any isUpgrade = false := by
    simpa [Upgraded] using before
  have new : ∀ event ∈ events, isUpgrade event = false :=
    fun event member => noUpgrade event (allowed event member)
  constructor
  · unfold LeftAlone
    rw [shape]
    refine each_append.mpr ⟨leftAlone, ?_⟩
    intro earlier event later inside
    have none : (c.trace ++ earlier).any isUpgrade = false := by
      rw [List.any_append, old, Bool.false_or, List.any_eq_false]
      intro other member
      simp [new other (by simp [inside, member])]
    cases event <;> simp [Untouched, none]
  · have none : events.any isUpgrade = false := by
      rw [List.any_eq_false]
      intro event member
      simp [new event member]
    simp [Upgraded, shape, old, none]

/-- Nothing is attached after the upgrade. -/
theorem Handed.detached
    {c : ServerConnection}
    {stack : List Frame}
    (handed : Handed c stack)
    (receiving : Receiving c stack)
    (req : Nat) :
    ¬ c.Attached req := by
  have noneHeld : held stack = [] := by
    unfold held
    rw [List.filterMap_eq_nil_iff]
    intro frame member
    have isSpent := handed.frames frame member
    unfold held?
    split
    · simp [spent] at isSpent
    · rfl
  intro isAttached
  rcases receiving.located req isAttached with inside | isHeld
  · simp [handed.requests] at inside
  · simp [noneHeld] at isHeld

/-- A frame stays spent while what it looks at stays the same. -/
theorem spent_same
    {c next : ServerConnection}
    {frame : Frame}
    (isSpent : spent c frame = true)
    (upgraded :
      ∀ req, Event.upgraded req ∈ c.trace → Event.upgraded req ∈ next.trace)
    (closing : next.closing = c.closing)
    (stopping : next.stopping = c.stopping)
    (finishOnReceive :
      ∀ req,
        (next.store req).finishOnReceive = (c.store req).finishOnReceive)
    (headers : ∀ req, (next.store req).headers = (c.store req).headers)
    (partialMode :
      ∀ req,
        routes req frame = true →
        (next.store req).partialMode = (c.store req).partialMode) :
    spent next frame = true := by
  cases frame with
  | fire callback =>
      cases callback <;> simp [spent] at isSpent ⊢
      exact upgraded _ isSpent
  | routed req done buf =>
      simpa [spent, partialMode req (by simp [routes])] using isSpent
  | received req done buf =>
      simpa [spent, finishOnReceive, headers, closing] using isSpent
  | finishReturn =>
      simpa [spent, closing, stopping] using isSpent
  | dropRequests error returns =>
      cases returns <;> simp [spent] at isSpent ⊢
  | _ =>
      exact isSpent

/-- An observation that does not touch the stream. -/
theorem Upgrading.observe
    {c : ServerConnection}
    {stack : List Frame}
    {event : Event}
    (upgrading : Upgrading c stack)
    (untouched : Untouched c.trace event)
    (noUpgrade : isUpgrade event = false) :
    Upgrading (c.emit event) stack where
  leftAlone := each_snoc.mpr ⟨upgrading.leftAlone, untouched⟩
  handed isUpgraded := by
    have wasUpgraded : c.Upgraded := by
      simpa [Upgraded, emit, noUpgrade] using isUpgraded
    have handed := upgrading.handed wasUpgraded
    refine
      { listener := handed.listener, idleTimer := handed.idleTimer
        requests := handed.requests, frames := ?_ }
    intro frame member
    exact spent_same (handed.frames frame member)
      (fun _ => List.mem_append_left _) rfl rfl (fun _ => rfl) (fun _ => rfl)
      fun _ _ => rfl

/-- Other spent frames take the place of the frames above. -/
theorem Upgrading.replace
    {c : ServerConnection}
    {frames below : List Frame}
    (top : List Frame)
    (upgrading : Upgrading c (top ++ below))
    (isSpent :
      c.Upgraded → ∀ frame ∈ frames, spent c frame = true) :
    Upgrading c (frames ++ below) where
  leftAlone := upgrading.leftAlone
  handed isUpgraded := by
    have handed := upgrading.handed isUpgraded
    refine
      { listener := handed.listener, idleTimer := handed.idleTimer
        requests := handed.requests, frames := ?_ }
    intro frame member
    rcases List.mem_append.mp member with isNew | isBelow
    · exact isSpent isUpgraded frame isNew
    · exact handed.frames frame (List.mem_append_right _ isBelow)

/-! ## Every step -/

/-- The steps of a connection whose stream has been handed over. -/
theorem Upgrading.tickHanded
    {frame : Frame}
    {rest frames : List Frame}
    {c next : ServerConnection}
    (upgrading : Upgrading c (frame :: rest))
    (isUpgraded : c.Upgraded)
    (executed : code frame c = .next next frames) :
    Upgrading next (frames ++ rest) := by
  have handed := upgrading.handed isUpgraded
  have isSpent := handed.frames frame (by simp)
  have popped : Upgrading c ([] ++ rest) :=
    upgrading.replace [frame] (by simp)
  cases frame with
  | callback fired =>
      cases executed
      exact popped
  | fire callback =>
      cases callback with
      | finishEvent req =>
          cases executed
          have wasUpgraded : Event.upgraded req ∈ c.trace := by
            simpa [spent] using isSpent
          have fired :
              Upgrading (c.emit (.fired (.finishEvent req))) ([] ++ rest) :=
            popped.observe (fun _ => ⟨req, wasUpgraded, rfl⟩) rfl
          exact fired.replace [] (by simp [spent])
      | _ =>
          simp [spent] at isSpent
  | onRead buf =>
      have empty : buf = [] := by simpa [spent] using isSpent
      subst empty
      cases executed
      exact popped
  | routed req done buf =>
      simp only [spent, Bool.and_eq_true, Bool.not_eq_eq_eq_not, Bool.not_true,
        List.isEmpty_iff] at isSpent
      obtain ⟨⟨unfinished, notPartial⟩, empty⟩ := isSpent
      simp [code, routed, unfinished, notPartial] at executed
      obtain ⟨rfl, rfl⟩ := executed
      exact popped.replace [] (by simp [spent, empty])
  | received req done buf =>
      cases done with
      | false =>
          have empty : buf = [] := by simpa [spent] using isSpent
          cases executed
          exact popped.replace [] (by simp [spent, empty])
      | true =>
          simp only [spent, Bool.not_true, Bool.false_or, Bool.and_eq_true,
            List.isEmpty_iff, Bool.not_eq_eq_eq_not] at isSpent
          obtain ⟨empty, ⟨notWaiting, notClosing⟩, keepAlive⟩ := isSpent
          simp [code, received, notWaiting, notClosing, keepAlive] at executed
          obtain ⟨rfl, rfl⟩ := executed
          exact popped.replace [] (by simp [spent, empty])
  | finishReturn =>
      simp only [spent, Bool.and_eq_true, Bool.not_eq_eq_eq_not,
        Bool.not_true] at isSpent
      -- `upgrade` has reset the idle timer, so `check_if_idle` ends the run
      simp [code, finishReturn, isSpent.1, isSpent.2, handed.requests,
        checkIfIdle, handed.idleTimer] at executed
  | dropRequests error returns =>
      cases returns with
      | doClose soft =>
          simp only [code, dropRequests, handed.requests] at executed
          cases soft with
          | true =>
              cases executed
              exact popped
          | false =>
              cases executed
              have removed : Upgrading (c.emit .removed) ([] ++ rest) :=
                popped.observe trivial rfl
              exact removed.replace [] (by simp [spent])
      | writeNextResponse req tmpChunks =>
          simp [spent] at isSpent
  | upgradeReturn =>
      cases executed
      have removed : Upgrading (c.emit .removed) ([] ++ rest) :=
        popped.observe trivial rfl
      exact removed.replace [] (by simp [spent])
  | _ =>
      simp [spent] at isSpent

theorem emits_noUpgrade
    (frame : Frame)
    (event : Event)
    (emitted : emits frame event = true) :
    isUpgrade event = false := by
  cases event with
  | upgraded req =>
      unfold emits at emitted
      split at emitted <;> simp_all
  | _ =>
      rfl

theorem Upgrading.tick
    {frame : Frame}
    {rest frames : List Frame}
    {c next : ServerConnection}
    (upgrading : Upgrading c (frame :: rest))
    (executed : code frame c = .next next frames) :
    Upgrading next (frames ++ rest) := by
  by_cases isUpgraded : c.Upgraded
  · exact upgrading.tickHanded isUpgraded executed
  · obtain ⟨leftAlone, notUpgraded⟩ :=
      leftAlone_before upgrading.leftAlone isUpgraded (emits_noUpgrade frame)
        (code_emits executed)
    exact ⟨leftAlone, fun now => (notUpgraded now).elim⟩

theorem emitsCalled_noUpgrade
    {input : Input}
    (notUpgrade : ∀ req, input ≠ .upgrade req)
    (event : Event)
    (emitted : emitsCalled input event = true) :
    isUpgrade event = false := by
  cases event with
  | upgraded req =>
      unfold emitsCalled at emitted
      split at emitted <;> simp_all
  | _ =>
      rfl

/-- Calls on a connection whose stream has been handed over. -/
theorem Upgrading.inputHanded
    {input : Input}
    {stack frames : List Frame}
    {c next : ServerConnection}
    (receiving : Receiving c stack)
    (upgrading : Upgrading c stack)
    (isUpgraded : c.Upgraded)
    (permitted : HandsOver ⟨c, stack, none⟩ (.input input))
    (accepted : accept input stack.head? c = some (.next next frames)) :
    Upgrading next (frames ++ stack) := by
  have handed := upgrading.handed isUpgraded
  have detached : ∀ req, (c.store req).connection = false := by
    intro req
    simpa [Attached] using handed.detached receiving req
  cases input with
  | respond req response =>
      simp only [accept, requestRespond, detached] at accepted
      split at accepted <;> cases accepted
      exact upgrading
  | sendContinue req =>
      simp only [accept, requestSendContinue, detached] at accepted
      cases accepted
      exact upgrading
  | sendChunk req data | sendFinalChunk req data =>
      rcases responseSend_next (Option.some.inj accepted) with
        ⟨rfl, rfl⟩ | ⟨_, _, accepts, _⟩
      · exact upgrading
      · exact (handed.detached receiving req accepts.1).elim
  | drop req =>
      simp only [accept, requestDrop, detached] at accepted
      cases accepted
      exact upgrading
  | upgrade req =>
      rcases requestUpgrade_next (Option.some.inj accepted) with
        ⟨rfl, rfl⟩ | ⟨isAttached, _⟩
      · exact upgrading
      · exact (handed.detached receiving req isAttached).elim
  | enablePartial req =>
      cases accepted
      refine ⟨upgrading.leftAlone, fun _ => ?_⟩
      refine
        { listener := handed.listener, idleTimer := handed.idleTimer
          requests := handed.requests, frames := ?_ }
      intro frame member
      refine spent_same (handed.frames frame member) (fun _ => id) rfl rfl
        ?_ ?_ ?_
      · intro other
        by_cases same : other = req <;> simp [same]
      · intro other
        by_cases same : other = req <;> simp [same, ServerRequest.headers]
      · intro other isRouted
        have different : other ≠ req := by
          rintro rfl
          simp [permitted isUpgraded frame member] at isRouted
        simp [different]
  | close error | shutdown error | gracefulStop =>
      exact (permitted isUpgraded).elim
  | onRead buf =>
      cases stack <;>
        simp [accept, canRead, handed.listener] at accepted
  | onReadError error | onEof | onWrite error | onShutdown
  | onConnectionError error =>
      cases stack <;> simp [accept, handed.listener] at accepted
  | idleTimeout =>
      cases stack <;> simp [accept, handed.idleTimer] at accepted

/-- The stream is handed over while every frame is spent. -/
theorem Upgrading.upgrade
    {req : Nat}
    {stack frames : List Frame}
    {c next : ServerConnection}
    (upgrading : Upgrading c stack)
    (notUpgraded : ¬ c.Upgraded)
    (permitted : HandsOver ⟨c, stack, none⟩ (.input (.upgrade req)))
    (executed : c.requestUpgrade req = .next next frames) :
    Upgrading next (frames ++ stack) := by
  rcases requestUpgrade_next executed with
    ⟨rfl, rfl⟩ | ⟨attached, upgrades, alone, rfl, rfl⟩
  · exact upgrading
  · have isSpent : ∀ frame ∈ stack, spent c frame = true :=
      permitted attached upgrades alone
    constructor
    · unfold LeftAlone
      have shape :
          ((({ c with
            stream := { c.stream with listener := false }
            idleTimer := none } : ServerConnection).emit
              (.upgraded req)).cleanupRequest req []).trace =
            c.trace ++ [.upgraded req] ++ [.cleanedUp req] := rfl
      rw [shape]
      exact each_snoc.mpr
        ⟨each_snoc.mpr ⟨upgrading.leftAlone, trivial⟩, trivial⟩
    · intro _
      refine
        { listener := rfl, idleTimer := rfl, requests := rfl, frames := ?_ }
      intro frame member
      rcases List.mem_append.mp member with isNew | isOld
      · simp only [List.mem_cons, List.not_mem_nil, or_false] at isNew
        rcases isNew with rfl | rfl
        · simp [spent, cleanupRequest, emit, setRequest]
        · rfl
      · refine spent_same (isSpent frame isOld) ?_ rfl rfl ?_ ?_ ?_
        · intro other wasUpgraded
          simp [cleanupRequest, emit, setRequest, wasUpgraded]
        · intro other
          by_cases same : other = req <;>
            simp [cleanupRequest, emit, setRequest, same]
        · intro other
          by_cases same : other = req <;>
            simp [cleanupRequest, emit, setRequest, same,
              ServerRequest.headers]
        · intro other _
          by_cases same : other = req <;>
            simp [cleanupRequest, emit, setRequest, same]

theorem Upgrading.input
    {input : Input}
    {stack frames : List Frame}
    {c next : ServerConnection}
    (receiving : Receiving c stack)
    (upgrading : Upgrading c stack)
    (permitted : HandsOver ⟨c, stack, none⟩ (.input input))
    (accepted : accept input stack.head? c = some (.next next frames)) :
    Upgrading next (frames ++ stack) := by
  by_cases isUpgraded : c.Upgraded
  · exact upgrading.inputHanded receiving isUpgraded permitted accepted
  · by_cases upgrades : ∃ req, input = .upgrade req
    · obtain ⟨req, rfl⟩ := upgrades
      exact upgrading.upgrade isUpgraded permitted (Option.some.inj accepted)
    · obtain ⟨leftAlone, notUpgraded⟩ :=
        leftAlone_before upgrading.leftAlone isUpgraded
          (emitsCalled_noUpgrade fun req same => upgrades ⟨req, same⟩)
          (accept_emits accepted)
      exact ⟨leftAlone, fun now => (notUpgraded now).elim⟩

/-! ## Every run -/

/-- Every permitted step leaves an upgraded stream alone. -/
theorem upgrading_preserved :
    machine.Preserves HandsOver
      (fun c stack => Receiving c stack ∧ Upgrading c stack) := by
  apply preserves_of
  · intro frame rest c next frames _ _ ⟨receiving, upgrading⟩ executed
    exact ⟨receiving.tick executed, upgrading.tick executed⟩
  · intro fired rest c ⟨receiving, upgrading⟩
    have popped : Upgrading c ([] ++ rest) :=
      upgrading.replace [.callback fired] (by simp)
    exact ⟨receiving.ret, popped⟩
  · intro input stack c next frames boundary permitted ⟨receiving, upgrading⟩
      accepted
    exact ⟨receiving.input boundary accepted,
      upgrading.input receiving permitted accepted⟩
  · intro stack c exception boundary ⟨receiving, upgrading⟩
    exact ⟨receiving.threw boundary, upgrading.observe trivial rfl⟩

theorem upgrading_initial (config : ConnectionConfig) :
    Upgrading (initial config) [] where
  leftAlone := each_nil Untouched
  handed isUpgraded := by
    simp [Upgraded, initial] at isUpgraded

/-- Where a stream is handed over by spent code, it is left alone. -/
theorem leftAlone_of_handsOver
    {config : ConnectionConfig}
    {labels : List Label}
    {final : Config}
    (ran : run? config labels = some final)
    (handsOver : machine.Guarded HandsOver (start config) labels) :
    LeftAlone final.state :=
  (upgrading_preserved.run
    (⟨receiving_initial config, upgrading_initial config⟩ :
      Receiving (start config).state (start config).stack ∧
        Upgrading (start config).state (start config).stack)
    handsOver ran).2.leftAlone

/-- A request for an upgrade is answered by an upgrade in `request_event`. -/
def upgradedOnRequest : List Label :=
  [.input (.onRead [.done { connection := "Upgrade" }]),
    .tick, .tick, .ret, .tick, .tick, .ret, .tick,
    .input (.upgrade 0), .tick, .ret, .tick, .ret, .ret, .tick, .tick]

theorem leftAlone_upgradedOnRequest :
    ∃ final,
      run? {} upgradedOnRequest = some final ∧
        LeftAlone final.state ∧ final.state.Upgraded ∧ final.stack = [] := by
  have handsOver :
      machine.Guarded HandsOver (start {}) upgradedOnRequest := by
    decide
  have ran : run? {} upgradedOnRequest = some _ := rfl
  exact ⟨_, ran, leftAlone_of_handsOver ran handsOver, by decide, rfl⟩

/-- Bytes of the new protocol follow the upgrade request in its buffer. -/
def upgradedWithRest : List Label :=
  [.input (.onRead [.done { connection := "Upgrade" }, .error (.foreign 0)]),
    .tick, .tick, .ret, .tick, .tick, .ret, .tick,
    .input (.upgrade 0), .tick, .ret, .tick, .ret, .ret, .tick, .tick,
    .tick, .tick, .ret, .tick, .tick]

/-- A 400 response is written into the protocol of the application. -/
theorem upgradedWithRest_not_leftAlone :
    ∃ final,
      run? {} upgradedWithRest = some final ∧
        ¬ LeftAlone final.state ∧
        final.state.written.map Piece.req = [1] := by
  refine ⟨_, rfl, ?_, rfl⟩
  intro leftAlone
  have before :=
    leftAlone [_, _, _, _, _, _, _, _, _] (.newRequest 1) (_ :: _) rfl
  cases before

end UniEventHttp.ServerConnection
