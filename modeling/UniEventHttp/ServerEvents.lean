import UniEventHttp.ServerReceiving

namespace UniEventHttp.ServerConnection

/-!
# What a step observes

The history of a connection only grows, and each piece of code adds observations
of few kinds.  Later invariants use this to see which steps concern them.
-/

/-- The observations that the code of a frame may make. -/
def emits : Frame → Event → Bool
  | .fire callback, .fired other => other == callback
  | .onRead _, .newRequest _ => true
  | .onRead _, .appended _ => true
  | .received _ _ _, .readIgnored => true
  | .requestError _ _, .readIgnored => true
  | .requestErrorReturn req, .responded other _ => other == req
  | .readIgnore, .readIgnored => true
  | .writeNextResponse, .wrote _ => true
  | .writeNextResponse, .readIgnored => true
  | .finishRequest, .cleanedUp _ => true
  | .finishReturn, .closed soft => soft
  | .dropRequests _ _, .cleanedUp _ => true
  | .dropRequests error _, .dropped _ other => other == error
  | .dropRequests _ (.doClose soft), .removed => !soft
  | .dropRequests _ (.writeNextResponse _ _), .wrote _ => true
  | .upgradeReturn, .removed => true
  | _, _ => false

/-- The observations that the code of an entry point may make. -/
def emitsCalled : Input → Event → Bool
  | .respond req _, .responded other _ => other == req
  | .sendContinue _, .wrote _ => true
  | .sendChunk req _, .gaveChunk other _ => other == req
  | .sendChunk _ _, .wrote _ => true
  | .sendFinalChunk req _, .gaveFinalChunk other _ => other == req
  | .sendFinalChunk _ _, .wrote _ => true
  | .drop _, .closed soft => !soft
  | .upgrade req, .upgraded other => other == req
  | .upgrade req, .cleanedUp other => other == req
  | .close _, .closed soft => !soft
  | .shutdown _, .closed soft => soft
  | .gracefulStop, .closed soft => soft
  | .onReadError _, .newRequest _ => true
  | .onReadError _, .appended _ => true
  | .onEof, .closed soft => soft
  | .onWrite _, .closed soft => !soft
  | .onShutdown, .removed => true
  | .onConnectionError _, .closed soft => !soft
  | .idleTimeout, .closed soft => !soft
  | _, _ => false

/-- The second history is the first one with new observations of certain kinds. -/
def Grows
    (may : Event → Bool)
    (before after : List Event) : Prop :=
  ∃ events,
    after = before ++ events ∧ ∀ event ∈ events, may event = true

namespace Grows

variable {may : Event → Bool} {first second third : List Event}

theorem refl (history : List Event) : Grows may history history :=
  ⟨[], by simp⟩

theorem snoc
    (history : List Event)
    {event : Event}
    (allowed : may event = true) :
    Grows may history (history ++ [event]) :=
  ⟨[event], rfl, by simpa using allowed⟩

theorem trans
    (one : Grows may first second)
    (two : Grows may second third) :
    Grows may first third := by
  obtain ⟨early, rfl, earlyMay⟩ := one
  obtain ⟨late, rfl, lateMay⟩ := two
  refine ⟨early ++ late, by simp, ?_⟩
  intro event member
  exact (List.mem_append.mp member).elim (earlyMay event) (lateMay event)

theorem imp
    {might : Event → Bool}
    (implies : ∀ event, may event = true → might event = true)
    (grows : Grows may first second) :
    Grows might first second := by
  obtain ⟨events, shape, allowed⟩ := grows
  exact ⟨events, shape, fun event member => implies event (allowed event member)⟩

/-- What was observed stays observed. -/
theorem mem
    (grows : Grows may first second)
    {event : Event}
    (member : event ∈ first) :
    event ∈ second := by
  obtain ⟨events, rfl, _⟩ := grows
  exact List.mem_append_left _ member

/-- What may not be observed now was observed before. -/
theorem old
    (grows : Grows may first second)
    {event : Event}
    (notNow : may event = false)
    (member : event ∈ second) :
    event ∈ first := by
  obtain ⟨events, rfl, allowed⟩ := grows
  rcases List.mem_append.mp member with wasThere | new
  · exact wasThere
  · simp [allowed event new] at notNow

end Grows

/-! ## The frames -/

theorem writeChunks_grows
    {may : Event → Bool}
    (c : ServerConnection)
    (req : Nat)
    (wrote : ∀ data, may (.wrote (.chunk req data)) = true)
    (chunks : List Data) :
    Grows may c.trace (c.writeChunks req chunks).trace := by
  induction chunks generalizing c with
  | nil =>
      exact Grows.refl _
  | cons data rest inductionHypothesis =>
      exact (Grows.snoc c.trace (wrote data)).trans (inductionHypothesis _)

theorem startClosing_grows
    {may : Event → Bool}
    (ignored : may .readIgnored = true)
    (c : ServerConnection)
    (req : Nat) :
    Grows may c.trace (c.startClosing req).trace := by
  simp only [startClosing]
  split
  · exact Grows.snoc c.trace ignored
  · exact Grows.refl _

theorem doClose_grows
    {may : Event → Bool}
    {c next : ServerConnection}
    {error : Option ErrorCode}
    {soft : Bool}
    {frames : List Frame}
    (closed : may (.closed soft) = true)
    (executed : c.doClose error soft = .next next frames) :
    Grows may c.trace next.trace := by
  cases executed
  cases soft <;> exact Grows.snoc c.trace closed

/-- `do_close` of a state with the same history. -/
theorem closes_grows
    {may : Event → Bool}
    {c middle next : ServerConnection}
    {error : Option ErrorCode}
    {soft : Bool}
    {frames : List Frame}
    (sameTrace : middle.trace = c.trace)
    (closed : may (.closed soft) = true)
    (executed : middle.doClose error soft = .next next frames) :
    Grows may c.trace next.trace := by
  rw [← sameTrace]
  exact doClose_grows closed executed

theorem writeNextResponse_grows
    {c next : ServerConnection}
    {frames : List Frame}
    (executed : c.writeNextResponse = .next next frames) :
    Grows (emits .writeNextResponse) c.trace next.trace := by
  have headed :
      ∀ req rest response middle,
        WritesHead c req rest response middle →
        Grows (emits .writeNextResponse) c.trace middle.trace := by
    intro req rest response middle writesHead
    have wrote :
        Grows (emits .writeNextResponse) c.trace
          (c.writeHead req response).trace :=
      Grows.snoc c.trace rfl
    cases writesHead with
    | keepAlive _ _ =>
        exact wrote
    | closing _ =>
        exact wrote.trans (startClosing_grows rfl _ req)
  obtain ⟨req, rest, given, _, _, outcome⟩ := writeNextResponse_next executed
  cases outcome with
  | finish writesHead _ =>
      exact headed _ _ _ _ writesHead
  | flush writesHead _ =>
      exact (headed _ _ _ _ writesHead).trans
        (writeChunks_grows _ _ (fun _ => rfl) _)
  | hold _ _ =>
      have wrote :
          Grows (emits .writeNextResponse) c.trace
            (c.writeHead req (c.prepared given).withoutTmpChunks).trace :=
        Grows.snoc c.trace rfl
      exact wrote.trans (startClosing_grows rfl _ req)

theorem parses_grows
    {c next : ServerConnection}
    {result : Parsed}
    {req : Nat}
    (parses : Parses c result next req)
    (buf : List Parsed) :
    Grows (emits (.onRead buf)) c.trace next.trace := by
  obtain ⟨_, _, ⟨_, _, _, trace⟩ | ⟨_, _, _, _, trace⟩⟩ := parses.origin
  · refine ⟨_, trace, ?_⟩
    split <;> simp [emits]
  · rw [List.append_assoc] at trace
    refine ⟨_, trace, ?_⟩
    split <;> simp [emits]

/-- The code of a frame only adds observations of its own kinds. -/
theorem code_emits
    {frame : Frame}
    {c next : ServerConnection}
    {frames : List Frame}
    (executed : code frame c = .next next frames) :
    Grows (emits frame) c.trace next.trace := by
  cases frame with
  | callback fired =>
      cases executed
      exact Grows.refl _
  | fire fired =>
      cases executed
      exact Grows.snoc c.trace (by simp [emits])
  | onRead buf =>
      cases buf with
      | nil =>
          cases executed
          exact Grows.refl _
      | cons result rest =>
          obtain ⟨parsed, req, parses, reads⟩ := onReadLoop_next executed
          have grows := parses_grows parses (result :: rest)
          cases reads <;> exact grows
  | routed req done buf =>
      simp only [code, routed] at executed
      split at executed
      · cases executed
        exact Grows.refl _
      · split at executed <;> cases executed <;> exact Grows.refl _
  | received req done buf =>
      simp only [code, received] at executed
      split at executed
      · cases executed
        exact Grows.refl _
      · split at executed
        · cases executed
          exact Grows.refl _
        · split at executed <;> cases executed
          · exact Grows.snoc c.trace rfl
          · exact Grows.refl _
  | requestError req error =>
      cases executed
      exact Grows.snoc c.trace rfl
  | requestErrorReturn req =>
      simp only [code, requestErrorReturn] at executed
      split at executed
      · obtain ⟨_, _, rfl, _⟩ := respond_next executed
        exact Grows.snoc c.trace (by simp [emits])
      · split at executed <;> cases executed <;> exact Grows.refl _
  | readIgnore =>
      cases executed
      exact Grows.snoc c.trace rfl
  | writeNextResponse =>
      exact writeNextResponse_grows executed
  | finishRequest =>
      obtain ⟨req, rest, _, _, ⟨_, rfl, _⟩ | ⟨_, rfl, _⟩⟩ :=
        finishRequest_next executed
      · exact Grows.refl _
      · exact Grows.snoc c.trace rfl
  | finishReturn =>
      rcases finishReturn_next executed with
        ⟨_, closed⟩ | ⟨_, _, ⟨_, trace, _⟩ | ⟨rfl, _⟩⟩
      · exact doClose_grows rfl closed
      · rw [trace]
        exact Grows.refl _
      · exact Grows.refl _
  | dropRequests error returns =>
      simp only [code, dropRequests] at executed
      split at executed
      · rename_i req rest shape
        cases executed
        refine ⟨[.cleanedUp req, .dropped req error], ?_, ?_⟩
        · simp [cleanupRequest, emit, setRequest]
        · simp [emits]
      · split at executed
        · cases executed
          exact Grows.refl _
        · cases executed
          exact Grows.snoc c.trace rfl
        · rename_i req tmpChunks
          unfold flushResponse at executed
          split at executed <;> cases executed
          · exact Grows.refl _
          · exact writeChunks_grows { c with requests := [req] } req
              (fun _ => rfl) tmpChunks
  | dropNotify req error =>
      simp only [code, dropNotify] at executed
      split at executed <;> split at executed <;> cases executed <;>
        exact Grows.refl _
  | upgradeReturn =>
      cases executed
      exact Grows.snoc c.trace rfl

/-! ## The entry points -/

theorem respond_grows
    {c next : ServerConnection}
    {req : Nat}
    {response : ServerResponse}
    {frames : List Frame}
    (executed : c.requestRespond req response = .next next frames) :
    Grows (emitsCalled (.respond req response)) c.trace next.trace := by
  unfold requestRespond at executed
  split at executed
  · obtain ⟨_, _, rfl, _⟩ := respond_next executed
    exact Grows.snoc c.trace (by simp [emitsCalled])
  · cases executed
    exact Grows.refl _

theorem sendContinue_grows
    {may : Event → Bool}
    {c next : ServerConnection}
    {req : Nat}
    {frames : List Frame}
    (wrote : may (.wrote (.continue100 req)) = true)
    (executed : c.requestSendContinue req = .next next frames) :
    Grows may c.trace next.trace := by
  unfold requestSendContinue at executed
  split at executed
  · unfold sendContinue at executed
    split at executed
    · cases executed
    · dsimp only at executed
      split at executed
      · cases executed
        exact Grows.refl _
      · split at executed
        · cases executed
          exact Grows.refl _
        · split at executed <;> cases executed
          exact Grows.snoc c.trace wrote
  · cases executed
    exact Grows.refl _

theorem sendChunk_grows
    {may : Event → Bool}
    {c next : ServerConnection}
    {req : Nat}
    {data : Data}
    {frames : List Frame}
    (gave : may (.gaveChunk req data) = true)
    (wrote : may (.wrote (.chunk req data)) = true)
    (executed :
      (c.responseSend req fun response => c.sendChunk req response data) =
        .next next frames) :
    Grows may c.trace next.trace := by
  rcases responseSend_next executed with ⟨rfl, _⟩ | ⟨response, _, _, sent⟩
  · exact Grows.refl _
  · have taken : Grows may c.trace (c.emit (.gaveChunk req data)).trace :=
      Grows.snoc c.trace gave
    simp only [sendChunk] at sent
    split at sent
    · cases sent
    · split at sent
      · cases sent
        exact taken
      · split at sent <;> cases sent
        · exact taken.trans (Grows.snoc _ wrote)
        · exact taken

theorem sendFinalChunk_grows
    {may : Event → Bool}
    {c next : ServerConnection}
    {req : Nat}
    {data : Data}
    {frames : List Frame}
    (gave : may (.gaveFinalChunk req data) = true)
    (wrote : may (.wrote (.finalChunk req data)) = true)
    (executed :
      (c.responseSend req fun response =>
        c.sendFinalChunk req response data) = .next next frames) :
    Grows may c.trace next.trace := by
  rcases responseSend_next executed with ⟨rfl, _⟩ | ⟨response, _, _, sent⟩
  · exact Grows.refl _
  · have taken : Grows may c.trace (c.emit (.gaveFinalChunk req data)).trace :=
      Grows.snoc c.trace gave
    simp only [sendFinalChunk] at sent
    split at sent
    · cases sent
    · split at sent <;> cases sent
      · exact taken.trans (Grows.snoc _ wrote)
      · exact taken

/-- The outcomes of `upgrade`: the request is refused, or the stream is handed over. -/
theorem requestUpgrade_next
    {c next : ServerConnection}
    {req : Nat}
    {frames : List Frame}
    (executed : c.requestUpgrade req = .next next frames) :
    next = c ∧ frames = [] ∨
      c.Attached req ∧
        iequals (c.store req).headers.connection "upgrade" = true ∧
        c.requests = [req] ∧
        next =
          (({ c with
            stream := { c.stream with listener := false }
            idleTimer := none } : ServerConnection).emit
              (.upgraded req)).cleanupRequest req [] ∧
        frames = [.fire (.finishEvent req), .upgradeReturn] := by
  unfold requestUpgrade at executed
  split at executed
  · cases executed
    exact Or.inl ⟨rfl, rfl⟩
  · rename_i attached
    split at executed
    · cases executed
      exact Or.inl ⟨rfl, rfl⟩
    · rename_i upgrades
      unfold ServerConnection.upgrade at executed
      split at executed
      · rename_i alone
        cases executed
        exact Or.inr ⟨by simpa [Attached] using attached,
          by simpa using upgrades, alone, rfl, rfl⟩
      · cases executed

/-- The code of an entry point only adds observations of its own kinds. -/
theorem accept_emits
    {input : Input}
    {top : Option Frame}
    {c next : ServerConnection}
    {frames : List Frame}
    (accepted : accept input top c = some (.next next frames)) :
    Grows (emitsCalled input) c.trace next.trace := by
  cases input with
  | respond req response =>
      simp only [accept] at accepted
      split at accepted
      · cases accepted
      · exact respond_grows (Option.some.inj accepted)
  | sendContinue req =>
      exact sendContinue_grows rfl (Option.some.inj accepted)
  | sendChunk req data =>
      exact sendChunk_grows (by simp [emitsCalled]) rfl
        (Option.some.inj accepted)
  | sendFinalChunk req data =>
      exact sendFinalChunk_grows (by simp [emitsCalled]) rfl
        (Option.some.inj accepted)
  | drop req =>
      simp only [accept, Option.some.injEq, requestDrop] at accepted
      split at accepted
      · cases accepted
        exact Grows.refl _
      · exact doClose_grows rfl accepted
  | upgrade req =>
      rcases requestUpgrade_next (Option.some.inj accepted) with
        ⟨rfl, _⟩ | ⟨_, _, _, rfl, _⟩
      · exact Grows.refl _
      · refine ⟨[.upgraded req, .cleanedUp req], ?_, ?_⟩
        · simp [cleanupRequest, emit, setRequest]
        · simp [emitsCalled]
  | enablePartial req =>
      cases accepted
      exact Grows.refl _
  | close error | shutdown error =>
      exact doClose_grows rfl (Option.some.inj accepted)
  | gracefulStop =>
      simp only [accept, Option.some.injEq, gracefulStop] at accepted
      split at accepted
      · exact doClose_grows rfl accepted
      · cases accepted
        exact Grows.refl _
  | onRead buf =>
      cases top <;> simp only [accept] at accepted
      · split at accepted <;> cases accepted
        exact Grows.refl _
      · cases accepted
  | onReadError error =>
      cases top <;> simp only [accept] at accepted
      · split at accepted
        · obtain ⟨req, _, fails⟩ := onReadError_next (Option.some.inj accepted)
          rcases fails.origin with
            ⟨_, _, _, _, trace, _⟩ | ⟨_, _, _, _, trace, _⟩
          · exact ⟨[], by simp [trace], by simp⟩
          · exact ⟨_, trace, by simp [emitsCalled]⟩
        · cases accepted
      · cases accepted
  | onEof | onConnectionError error =>
      cases top <;> simp only [accept] at accepted
      · split at accepted
        · have executed := Option.some.inj accepted
          exact closes_grows (by rfl) (by rfl) executed
        · cases accepted
      · cases accepted
  | onWrite error =>
      cases top <;> simp only [accept] at accepted
      · split at accepted
        · have executed := Option.some.inj accepted
          cases error with
          | none =>
              have trace := (checkIfIdle_next executed).2
              rw [trace]
              exact Grows.refl _
          | some error =>
              simp only [onWrite] at executed
              exact closes_grows (by rfl) (by rfl) executed
        · cases accepted
      · cases accepted
  | onShutdown =>
      cases top <;> simp only [accept] at accepted
      · split at accepted <;> cases accepted
        exact Grows.snoc c.trace rfl
      · cases accepted
  | idleTimeout =>
      cases top <;> simp only [accept, onIdleTimeout] at accepted
      · split at accepted
        · have executed := Option.some.inj accepted
          split at executed
          · exact closes_grows (by rfl) (by rfl) executed
          · cases executed
        · cases accepted
      · cases accepted

end UniEventHttp.ServerConnection
