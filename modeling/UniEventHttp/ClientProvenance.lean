import UniEventHttp.ClientConnections
import UniEventHttp.ClientUploading

namespace UniEventHttp.ClientSide.World

/-!
# Whose response is parsed

`on_read` gives what it reads to the context request of the parser.  When a
buffer is delivered, that is the request whose head was the last one on the
connection.  It stays so until a request is started on the client, which may
happen while `on_read` still loops over the buffer: then the rest of the buffer is
parsed for that request.
-/

/-- The client writes a head on the connection. -/
def headOn? : Event → Option (Nat × Nat)
  | .wrote c n (.head _ _) => some (c, n)
  | _ => none

/-- The stream delivers the buffer. -/
def delivered? : Event → Option Nat
  | .delivered _ _ buffer => some buffer
  | _ => none

/-- The head of the request is the last one that the client has written on the connection. -/
def LastHead (history : List Event) (c n r : Nat) : Prop :=
  ∃ fields before after,
    history = before ++ .wrote c n (.head r fields) :: after ∧
      ∀ event ∈ after, headOn? event ≠ some (c, n)

/--
What is read is for the request: its head was the last one before the delivery,
or it has been started since.
-/
def IsFor (before after : List Event) (c n r : Nat) : Prop :=
  (LastHead before c n r ∧ ∀ s, .started c s ∉ after) ∨ .started c r ∈ after

/-- The buffer was delivered, and it is parsed for the request that it is for. -/
def FromConnection (earlier : List Event) : Event → Prop
  | .parsed c buffer r =>
      ∃ n before after,
        earlier = before ++ .delivered c n buffer :: after ∧
          IsFor before after c n r
  | _ => True

/-- A delivered buffer is for the context request of the parser, if there is one. -/
def Feeds (w : World) (c buffer : Nat) : Prop :=
  ∃ n before after,
    w.trace = before ++ .delivered c n buffer :: after ∧
      ∀ r, (w.clients c).parsing = some r → IsFor before after c n r

/-- The context requests of the parsers, and what has been parsed so far. -/
structure Paired (w : World) : Prop where
  current :
    ∀ c n r,
      (w.clients c).tcp.connection = some n →
      (w.clients c).parsing = some r →
      LastHead w.trace c n r
  parsed : History.Each FromConnection w.trace
  named : ∀ buffer ∈ w.trace.filterMap delivered?, buffer < w.nextBuffer
  /-- No buffer is delivered twice. -/
  once : (w.trace.filterMap delivered?).Nodup

theorem LastHead.extend
    {history events : List Event}
    {c n r : Nat}
    (last : LastHead history c n r)
    (headless : ∀ event ∈ events, headOn? event ≠ some (c, n)) :
    LastHead (history ++ events) c n r := by
  obtain ⟨fields, before, after, rfl, none⟩ := last
  refine ⟨fields, before, after ++ events, by simp, fun event member => ?_⟩
  exact (List.mem_append.mp member).elim (none event) (headless event)

theorem IsFor.extend
    {before after events : List Event}
    {c n r : Nat}
    (isFor : IsFor before after c n r)
    (startless : ∀ s, .started c s ∉ events) :
    IsFor before (after ++ events) c n r := by
  rcases isFor with ⟨last, none⟩ | started
  · refine Or.inl ⟨last, fun s member => ?_⟩
    exact (List.mem_append.mp member).elim (none s) (startless s)
  · exact Or.inr (List.mem_append_left _ started)

/-- What nothing is parsed from adds nothing to the pairing. -/
theorem each_unparsed
    {history events : List Event}
    (parsed : History.Each FromConnection history)
    (unparsed : ∀ event ∈ events, ∀ c buffer r, event ≠ .parsed c buffer r) :
    History.Each FromConnection (history ++ events) := by
  refine parsed.extend fun event member earlier => ?_
  cases event with
  | parsed c buffer r =>
      exact (unparsed _ member c buffer r rfl).elim
  | _ =>
      trivial

/-! ## Sparing code -/

section Steps

variable {w next : World}

theorem Paired.abstains
    (paired : Paired w)
    (abstains : Abstains w next) :
    Paired next := by
  obtain ⟨events, trace, spare⟩ := abstains.trace
  have undelivered : ∀ event ∈ events, delivered? event = none := by
    intro event member
    have plain := spare event member
    cases event <;> first | rfl | cases plain
  constructor
  · intro c n r connection parsing
    rw [trace]
    refine (paired.current c n r (abstains.plugged c n connection).1
      (abstains.parsing c r parsing)).extend fun event member isHead => ?_
    have plain := spare event member
    cases event with
    | wrote d m piece =>
        cases piece with
        | head s fields =>
            cases plain
        | _ =>
            cases isHead
    | _ =>
        cases isHead
  · rw [trace]
    refine each_unparsed paired.parsed ?_
    rintro event member c buffer r rfl
    cases spare _ member
  · rw [trace, History.filterMap_append_unnamed undelivered, abstains.nextBuffer]
    exact paired.named
  · rw [trace, History.filterMap_append_unnamed undelivered]
    exact paired.once

theorem Feeds.abstains
    {c buffer : Nat}
    (feeds : Feeds w c buffer)
    (abstains : Abstains w next) :
    Feeds next c buffer := by
  obtain ⟨events, trace, spare⟩ := abstains.trace
  obtain ⟨n, before, after, shape, isFor⟩ := feeds
  refine ⟨n, before, after ++ events, by simp [trace, shape], ?_⟩
  intro r parsing
  refine (isFor r (abstains.parsing c r parsing)).extend fun s member => ?_
  cases spare _ member

/-! ## The start of a request -/

/-- What `Client::request` adds to the history. -/
theorem Started.history
    {c r : Nat}
    (started : Started w c r next) :
    ∃ opening pieces,
      next.trace =
          w.trace ++ opening ++ .started c r ::
            (wroteOn c (next.clients c).tcp.connection
                (.head r (w.requests r).toRequestFields.withScheme) ++ pieces) ∧
        (∀ event ∈ opening ++ pieces,
          headOn? event = none ∧ delivered? event = none ∧
            (∀ d buffer s, event ≠ .parsed d buffer s) ∧
              ∀ d s, event ≠ .started d s) := by
  obtain ⟨tcp, opening, pieces, connects, client, _, trace, body⟩ :=
    started.connects
  have connection : (next.clients c).tcp.connection = tcp.connection := by
    rw [client]
  refine ⟨opening, pieces.flatMap (wroteOn c tcp.connection),
    by rw [connection, trace], fun event member => ?_⟩
  rcases List.mem_append.mp member with opened | written
  · cases connects with
    | reuses _ _ _ =>
        cases opened
    | opens _ _ _ _ _ _ =>
        rw [List.mem_singleton] at opened
        subst opened
        exact ⟨rfl, rfl, by simp, by simp⟩
  · simp only [wroteOn, List.mem_flatMap, List.mem_map] at written
    obtain ⟨piece, isPiece, n, _, rfl⟩ := written
    have notHead := (body piece isPiece).2
    refine ⟨?_, rfl, by simp, by simp⟩
    cases piece with
    | head s fields =>
        exact (notHead s fields rfl).elim
    | _ =>
        rfl

theorem Paired.started
    {c r : Nat}
    (paired : Paired w)
    (started : Started w c r next) :
    Paired next := by
  obtain ⟨opening, pieces, trace, plain⟩ := started.history
  have headPlain :
      ∀ event ∈
        wroteOn c (next.clients c).tcp.connection
          (.head r (w.requests r).toRequestFields.withScheme),
        delivered? event = none ∧ ∀ d buffer s, event ≠ .parsed d buffer s := by
    intro event member
    simp only [wroteOn, List.mem_map] at member
    obtain ⟨n, _, rfl⟩ := member
    exact ⟨rfl, by simp⟩
  have added :
      ∃ events,
        next.trace = w.trace ++ events ∧
          ∀ event ∈ events,
            delivered? event = none ∧
              ∀ d buffer s, event ≠ .parsed d buffer s := by
    refine ⟨_, by rw [trace, List.append_assoc], fun event member => ?_⟩
    simp only [List.mem_append, List.mem_cons] at member
    rcases member with opened | rfl | written | piece
    · have isPlain := plain event (List.mem_append_left _ opened)
      exact ⟨isPlain.2.1, isPlain.2.2.1⟩
    · exact ⟨rfl, by simp⟩
    · exact headPlain event written
    · have isPlain := plain event (List.mem_append_right _ piece)
      exact ⟨isPlain.2.1, isPlain.2.2.1⟩
  obtain ⟨events, isNext, unread⟩ := added
  have undelivered : ∀ event ∈ events, delivered? event = none :=
    fun event member => (unread event member).1
  constructor
  · intro d n s connection parsing
    by_cases same : d = c
    · subst d
      have isContext : s = r := by
        rw [started.client] at parsing
        simpa using parsing.symm
      subst s
      refine ⟨(w.requests r).toRequestFields.withScheme,
        w.trace ++ opening ++ [.started c r], pieces,
        by simp [trace, connection, wroteOn], fun event member => ?_⟩
      rw [(plain event (List.mem_append_right _ member)).1]
      simp
    · rw [started.clients d same] at connection parsing
      rw [trace, List.append_assoc]
      refine (paired.current d n s connection parsing).extend
        fun event member isHead => ?_
      simp only [List.mem_append, List.mem_cons] at member
      rcases member with opened | rfl | written | piece
      · rw [(plain event (List.mem_append_left _ opened)).1] at isHead
        cases isHead
      · cases isHead
      · simp only [wroteOn, List.mem_map] at written
        obtain ⟨m, _, rfl⟩ := written
        simp only [headOn?, Option.some.injEq, Prod.mk.injEq] at isHead
        exact same isHead.1.symm
      · rw [(plain event (List.mem_append_right _ piece)).1] at isHead
        cases isHead
  · rw [isNext]
    exact each_unparsed paired.parsed fun event member => (unread event member).2
  · rw [isNext, History.filterMap_append_unnamed undelivered, started.nextBuffer]
    exact paired.named
  · rw [isNext, History.filterMap_append_unnamed undelivered]
    exact paired.once

theorem Feeds.started
    {c d r buffer : Nat}
    (feeds : Feeds w d buffer)
    (started : Started w c r next) :
    Feeds next d buffer := by
  obtain ⟨opening, pieces, trace, plain⟩ := started.history
  obtain ⟨n, before, after, shape, isFor⟩ := feeds
  refine ⟨n, before, _, by rw [trace, shape]; simp; rfl, ?_⟩
  intro s parsing
  by_cases same : d = c
  · subst d
    have isContext : s = r := by
      rw [started.client] at parsing
      simpa using parsing.symm
    subst s
    exact Or.inr (by simp)
  · rw [started.clients d same] at parsing
    refine (isFor s parsing).extend fun t member => ?_
    simp only [List.mem_append, List.mem_cons] at member
    rcases member with opened | restarted | written | piece
    · exact (plain _ (List.mem_append_left _ opened)).2.2.2 d t rfl
    · cases restarted
      exact same rfl
    · simp [wroteOn] at written
    · exact (plain _ (List.mem_append_right _ piece)).2.2.2 d t rfl

/-! ## Reading -/

theorem Paired.readFrom
    {c n : Nat}
    (paired : Paired w) :
    Paired (w.readFrom c n) := by
  constructor
  · intro d m r connection parsing
    exact (paired.current d m r connection parsing).extend
      (by simp [headOn?])
  · exact each_unparsed paired.parsed (by simp)
  · intro buffer member
    simp only [World.readFrom, emit, List.filterMap_append, List.mem_append]
      at member ⊢
    rcases member with old | new
    · exact Nat.lt_succ_of_lt (paired.named buffer old)
    · simp only [delivered?, List.filterMap_cons, List.filterMap_nil,
        List.mem_singleton] at new
      omega
  · simp only [World.readFrom, emit, List.filterMap_append, delivered?,
      List.filterMap_cons, List.filterMap_nil]
    refine List.nodup_append.mpr ⟨paired.once, List.nodup_singleton _, ?_⟩
    rintro old member new isNew rfl
    rw [List.mem_singleton] at isNew
    have below := paired.named old member
    omega

theorem Feeds.readFrom
    {c d n buffer : Nat}
    (feeds : Feeds w d buffer) :
    Feeds (w.readFrom c n) d buffer := by
  obtain ⟨m, before, after, shape, isFor⟩ := feeds
  refine ⟨m, before, after ++ [.delivered c n w.nextBuffer],
    by simp [World.readFrom, emit, shape], fun r parsing => ?_⟩
  exact (isFor r parsing).extend (by simp)

/-- The buffer that is delivered is for the request whose head was the last one. -/
theorem Paired.feeds
    {c n : Nat}
    (paired : Paired w)
    (connection : (w.clients c).tcp.connection = some n) :
    Feeds (w.readFrom c n) c w.nextBuffer :=
  ⟨n, w.trace, [], rfl, fun r parsing =>
    Or.inl ⟨paired.current c n r connection parsing, by simp⟩⟩

theorem parsing_parseShift
    {c d buffer context r : Nat}
    {result : Parsed}
    (isContext : (w.clients c).parsing = some context)
    (parsing :
      ((w.parseShift c buffer context result).clients d).parsing = some r) :
    (w.clients d).parsing = some r := by
  by_cases same : d = c
  · subst d
    simp only [World.parseShift, emit, World.setClient, Function.update_self]
      at parsing
    split at parsing
    · rw [isContext, parsing]
    · cases parsing
  · simpa [World.parseShift, emit, World.setClient, same] using parsing

theorem Paired.parseShift
    {c buffer context : Nat}
    (paired : Paired w)
    (feeds : Feeds w c buffer)
    (isContext : (w.clients c).parsing = some context)
    (result : Parsed) :
    Paired (w.parseShift c buffer context result) := by
  have undelivered :
      (w.parseShift c buffer context result).trace.filterMap delivered? =
        w.trace.filterMap delivered? :=
    History.filterMap_append_unnamed (by simp [delivered?])
  constructor
  · intro d n r connection parsing
    have was : (w.clients d).tcp.connection = some n := by
      by_cases same : d = c
      · subst d
        simpa [World.parseShift, World.setClient, emit] using connection
      · simpa [World.parseShift, World.setClient, emit, same] using connection
    exact (paired.current d n r was
      (parsing_parseShift isContext parsing)).extend (by simp [headOn?])
  · refine History.each_snoc.mpr ⟨paired.parsed, ?_⟩
    obtain ⟨n, before, after, shape, isFor⟩ := feeds
    exact ⟨n, before, after, shape, isFor context isContext⟩
  · rw [undelivered]
    exact paired.named
  · rw [undelivered]
    exact paired.once

theorem Feeds.parseShift
    {c d buffer other context : Nat}
    (feeds : Feeds w d other)
    (isContext : (w.clients c).parsing = some context)
    (result : Parsed) :
    Feeds (w.parseShift c buffer context result) d other := by
  obtain ⟨n, before, after, shape, isFor⟩ := feeds
  refine ⟨n, before, after ++ [.parsed c buffer context], ?_,
    fun r parsing => ?_⟩
  · simp [World.parseShift, emit, World.setClient, shape]
  · exact (isFor r (parsing_parseShift isContext parsing)).extend (by simp)

end Steps

/-! ## Where `on_read` is -/

section Frames

variable {w next : World} {frames : List Frame} {d other : Nat} {buf : List Parsed}

theorem onReadLoop_pushes
    {c buffer : Nat}
    {parts : List Parsed}
    (executed : w.onReadLoop c buffer parts = .next next frames)
    (member : .onRead d other buf ∈ frames) :
    d = c ∧ other = buffer ∧ ∃ result, parts = result :: buf := by
  cases parts with
  | nil =>
      cases executed
      cases member
  | cons result rest =>
      cases context : (w.clients c).parsing with
      | none =>
          simp only [onReadLoop, context] at executed
          cases executed
          cases member
      | some parsing =>
          simp only [onReadLoop, context] at executed
          cases result with
          | error error response =>
              exact (cancel_notReading executed ⟨other, buf, member⟩).elim
          | headers =>
              cases executed
              cases member
          | body response =>
              have stirs := receivePart_stirs c (Parsed.body response).response
                (Adjusts.parseShift w c buffer parsing (.body response))
              exact ((stirs.next next frames executed).2.notReading
                ⟨other, buf, member⟩).elim
          | done response =>
              obtain ⟨first, isNext, rfl⟩ := andFrames_next executed
              rcases List.mem_append.mp member with early | late
              · exact (analyzeRequest_notReading isNext ⟨other, buf, early⟩).elim
              · simp only [List.mem_singleton, Frame.onRead.injEq] at late
                exact ⟨late.1, late.2.1, .done response, by rw [late.2.2]⟩

/-- Only `on_read` goes on with `on_read`, and with the rest of the same buffer. -/
theorem code_pushes
    {frame : Frame}
    (executed : code frame w = .next next frames)
    (member : .onRead d other buf ∈ frames) :
    ∃ result, frame = .onRead d other (result :: buf) := by
  cases frame with
  | onRead c buffer parts =>
      obtain ⟨rfl, rfl, result, rfl⟩ := onReadLoop_pushes executed member
      exact ⟨result, rfl⟩
  | fire callback =>
      cases executed
      obtain ⟨listener, _, isFrame⟩ := List.mem_map.mp member
      cases listener <;> cases callback <;> cases isFrame
  | redirected c =>
      have executedCode : w.redirected c = .next next frames := executed
      cases canceled : (w.clients c).redirectCanceled with
      | true =>
          rw [redirected_canceled canceled] at executedCode
          cases executedCode
          cases member
      | false =>
          obtain ⟨rfl, _⟩ := (redirected_departs canceled).1 next frames executedCode
          cases member
  | redirectCatch c =>
      obtain ⟨first, isNext, rfl⟩ := andFrames_next executed
      rcases List.mem_append.mp member with early | late
      · exact (cancel_notReading isNext ⟨other, buf, early⟩).elim
      · simp at late
  | _ =>
      have unmarked := ((code_stirs w rfl).next next frames executed).2
      exact (unmarked.notReading ⟨other, buf, member⟩).elim

/-- No other call and no other event begins to read. -/
theorem accept_pushes
    {input : Input}
    {top : Option Frame}
    (notReading : ∀ c parts, input ≠ .onRead c parts)
    (accepted : accept input top w = some (.next next frames)) :
    .onRead d other buf ∉ frames := by
  intro member
  have reading : Reading frames d := ⟨other, buf, member⟩
  cases reception : isReception input with
  | false =>
      have unmarked :=
        ((accept_stirs reception accepted).next next frames rfl).2
      exact unmarked.notReading reading
  | true =>
      cases input with
      | onRead c parts =>
          exact notReading c parts rfl
      | onEof c error response =>
          cases top <;> simp only [accept, reduceCtorEq] at accepted
          split at accepted
          · simp only [Option.some.injEq] at accepted
            unfold onEof at accepted
            dsimp only at accepted
            split at accepted
            · cases accepted
              cases member
            · cases accepted
            · split at accepted
              · exact cancel_notReading accepted reading
              · exact analyzeRequest_notReading accepted reading
          · cases accepted
      | streamFinish r item error =>
          cases top <;> simp only [accept, reduceCtorEq] at accepted
          split at accepted
          · simp only [Option.some.injEq] at accepted
            unfold formFileComplete at accepted
            split at accepted
            · exact finishRequest_notReading accepted reading
            · obtain ⟨_, _, isNext⟩ := Straight.before_next accepted
              cases isNext
              cases member
          · cases accepted
      | _ =>
          cases reception

/-- An exception leaves `on_read`, and none is entered. -/
theorem onRead_of_mem_unwind
    {stack : List Frame}
    (member : .onRead d other buf ∈ machine.unwind stack) :
    .onRead d other buf ∈ stack := by
  induction stack with
  | nil =>
      exact member
  | cons top rest inductionHypothesis =>
      unfold CallMachine.Machine.unwind at member
      split at member
      · exact member
      · cases top with
        | redirected c =>
            rcases List.mem_append.mp member with caught | below
            · simp at caught
            · exact List.mem_cons_of_mem _ below
        | _ =>
            exact List.mem_cons_of_mem _ (inductionHypothesis member)

end Frames

/-! ## Every run -/

/-- The world is paired, and each buffer that is being read has been delivered. -/
structure Reads (w : World) (stack : List Frame) : Prop where
  paired : Paired w
  feeds :
    ∀ c buffer buf, .onRead c buffer buf ∈ stack → Feeds w c buffer

section Run

variable {w next : World} {stack : List Frame} {step : Step}

theorem Reads.links
    (reads : Reads w stack)
    (links : Links w next) :
    Reads next stack := by
  refine @Links.keeps w next (fun world => Reads world stack) ?_ ?_ links reads
  · intro _ _ abstains kept
    exact ⟨kept.paired.abstains abstains, fun c buffer buf member =>
      (kept.feeds c buffer buf member).abstains abstains⟩
  · intro _ _ _ _ started kept
    exact ⟨kept.paired.started started, fun c buffer buf member =>
      (kept.feeds c buffer buf member).started started⟩

theorem Reads.holds
    (reads : Reads w stack)
    (links : LinksTo w step) :
    step.Holds (fun next => Reads next stack) (fun _ => True) := by
  cases step with
  | next next frames | raise next =>
      exact reads.links links
  | fault reason =>
      trivial

/-- Other frames go on with the same buffers. -/
theorem Reads.restack
    {other : List Frame}
    (reads : Reads w stack)
    (same :
      ∀ c buffer buf,
        .onRead c buffer buf ∈ other → ∃ parts, .onRead c buffer parts ∈ stack) :
    Reads w other := by
  refine ⟨reads.paired, fun c buffer buf member => ?_⟩
  obtain ⟨parts, was⟩ := same c buffer buf member
  exact reads.feeds c buffer parts was

theorem Reads.executes
    {frame : Frame}
    {rest : List Frame}
    (reads : Reads w (frame :: rest)) :
    (code frame w).Holds (fun next => Reads next (frame :: rest))
      (fun _ => True) := by
  by_cases reading : ∃ c buffer buf, frame = .onRead c buffer buf
  · obtain ⟨c, buffer, buf, rfl⟩ := reading
    rcases onReadLoop_links w c buffer buf with
      links | ⟨context, result, parsing, links⟩
    · exact reads.holds links
    · have feeds := reads.feeds c buffer buf List.mem_cons_self
      have parsed :
          Reads (w.parseShift c buffer context result)
            (.onRead c buffer buf :: rest) :=
        ⟨reads.paired.parseShift feeds parsing result,
          fun d other parts member =>
            (reads.feeds d other parts member).parseShift parsing result⟩
      exact parsed.holds links
  · push Not at reading
    exact reads.holds (code_links w reading)

theorem Reads.unwinds
    (reads : Reads w stack) :
    Reads w (machine.unwind stack) :=
  reads.restack fun _ _ buf member => ⟨buf, onRead_of_mem_unwind member⟩

theorem Reads.returns
    {frame : Frame}
    (reads : Reads w (frame :: stack)) :
    Reads w stack :=
  reads.restack fun _ _ buf member => ⟨buf, List.mem_cons_of_mem _ member⟩

theorem preserves_reads : machine.Preserves (fun _ _ => True) Reads where
  tick frame rest w next frames _ _ reads executed := by
    change code frame w = .next next frames at executed
    have executes := reads.executes
    rw [executed] at executes
    have after : Reads next (frame :: rest) := executes
    refine after.restack fun c buffer buf member => ?_
    rcases List.mem_append.mp member with pushed | below
    · obtain ⟨result, rfl⟩ := code_pushes executed pushed
      exact ⟨result :: buf, List.mem_cons_self⟩
    · exact ⟨buf, List.mem_cons_of_mem _ below⟩
  tickRaise frame rest w next _ _ reads executed := by
    change code frame w = .raise next at executed
    have executes := reads.executes
    rw [executed] at executes
    have after : Reads next (frame :: rest) := executes
    exact after.returns.unwinds
  ret _ _ _ _ reads := reads.returns
  throw _ _ _ _ _ _ reads := reads.returns.unwinds
  input input stack w next frames _ _ reads accepted := by
    change accept input stack.head? w = some (.next next frames) at accepted
    by_cases reading : ∃ c buf, input = .onRead c buf
    · obtain ⟨c, buf, rfl⟩ := reading
      obtain ⟨n, connection, delivers⟩ := accept_onRead accepted
      cases delivers
      refine ⟨reads.paired.readFrom, fun d other parts member => ?_⟩
      rcases List.mem_append.mp member with pushed | below
      · simp only [List.mem_singleton, Frame.onRead.injEq] at pushed
        obtain ⟨rfl, rfl, _⟩ := pushed
        exact reads.paired.feeds connection
      · exact (reads.feeds d other parts below).readFrom
    · push Not at reading
      have after : Reads next stack :=
        reads.holds (accept_links reading accepted)
      refine after.restack fun c buffer buf member => ?_
      rcases List.mem_append.mp member with pushed | below
      · exact (accept_pushes reading accepted pushed).elim
      · exact ⟨buf, below⟩
  inputRaise input stack w next _ _ reads accepted := by
    change accept input stack.head? w = some (.raise next) at accepted
    by_cases reading : ∃ c buf, input = .onRead c buf
    · obtain ⟨c, buf, rfl⟩ := reading
      obtain ⟨n, _, delivers⟩ := accept_onRead accepted
      cases delivers
    · push Not at reading
      exact reads.holds (accept_links reading accepted)

/-- Nothing has been read yet. -/
theorem reads_of_fresh (fresh : Fresh w) :
    Reads (start w).state (start w).stack where
  paired :=
    { current := by simp [start, fresh.clients]
      parsed := by
        rw [show (start w).state.trace = [] from fresh.trace]
        exact History.each_nil _
      named := by simp [start, fresh.trace]
      once := by simp [start, fresh.trace] }
  feeds := by simp [start]

end Run

/--
In every run, what a client parses for a request comes from a buffer that one of
its connections has delivered.  The head of the request was the last one on that
connection before the delivery, and the client has started no request since; or
it has started this very request since, while it was reading the buffer.
-/
theorem answered_of_run
    (w : World)
    (labels : List Label)
    (final : Config)
    (fresh : Fresh w)
    (ran : run? w labels = some final)
    (earlier later : List Event)
    (c buffer r : Nat)
    (shape :
      final.state.trace = earlier ++ .parsed c buffer r :: later) :
    ∃ n before after,
      earlier = before ++ .delivered c n buffer :: after ∧
        IsFor before after c n r ∧
          (final.state.trace.filterMap delivered?).count buffer = 1 ∧
            ∀ d m,
              .delivered d m buffer ∈ final.state.trace → d = c ∧ m = n := by
  have reads : Reads final.state final.stack :=
    preserves_reads.run (reads_of_fresh fresh) (machine.guarded_true _ labels) ran
  obtain ⟨n, before, after, isEarlier, isFor⟩ :=
    reads.paired.parsed earlier _ later shape
  have inTrace : .delivered c n buffer ∈ final.state.trace := by
    simp [shape, isEarlier]
  refine ⟨n, before, after, isEarlier, isFor, ?_, fun d m member => ?_⟩
  · exact List.count_eq_one_of_mem reads.paired.once
      (List.mem_filterMap.mpr ⟨_, inTrace, rfl⟩)
  · have same :=
      History.eq_of_name reads.paired.once member inTrace rfl rfl
    cases same
    exact ⟨rfl, rfl⟩

/-- The response to the second request on a connection begins. -/
def readAlive : List Label :=
  keptAlive ++
    ([.input (.onRead 0 [.headers]), .tick] : List Label)

theorem answered_readAlive :
    ∃ final,
      run? (initial {}) readAlive = some final ∧
        ∃ n before after,
          final.state.trace.take 13 = before ++ .delivered 0 n 1 :: after ∧
            IsFor before after 0 n 1 ∧
              (final.state.trace.filterMap delivered?).count 1 = 1 ∧
                ∀ d m,
                  .delivered d m 1 ∈ final.state.trace → d = 0 ∧ m = n :=
  ⟨_, rfl,
    answered_of_run (initial {}) readAlive _ (fresh_initial {}) rfl _ [] 0 1 1
      rfl⟩

end UniEventHttp.ClientSide.World
