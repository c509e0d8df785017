import UniEventHttp.ServerDeeds

namespace UniEventHttp.ServerConnection

/-!
# Admission of upgrades

`on_read` refuses an upgrade request that arrives behind others, and
`ServerConnection::upgrade` throws if the request is not alone in the deque.
The first check compares the header exactly and when the request is read; the
second one comes when `upgrade` is called, and `ServerRequest::upgrade` before it
compares without regard to case.
-/

/-! ## The property -/

/-- No call of `upgrade` has thrown its `std::logic_error`. -/
def UpgradesInPlace (c : ServerConnection) : Prop :=
  ∀ message, Event.threw (.logicError message) ∉ c.trace

/-- `iequals(headers.connection(), "upgrade")` -/
def Wants (c : ServerConnection) (req : Nat) : Prop :=
  iequals (c.store req).headers.connection "upgrade" = true

/-- The request has passed the check of `on_read` under the exact spelling. -/
def Admitted (c : ServerConnection) (req : Nat) : Prop :=
  (c.store req).routed = true ∧
    (c.store req).headers.connection = "upgrade"

instance (c : ServerConnection) (req : Nat) : Decidable (Wants c req) :=
  inferInstanceAs (Decidable (_ = _))

instance (c : ServerConnection) (req : Nat) : Decidable (Admitted c req) :=
  inferInstanceAs (Decidable (_ ∧ _))

/-- The request that a label asks to upgrade. -/
def upgradeCall? : Label → Option Nat
  | .input (.upgrade req) => some req
  | _ => none

/--
`upgrade` is called while no request waits behind the one it is called on, which
has been admitted by `on_read` under the exact spelling or has none before it.
-/
def AsksInPlace (config : Config) (label : Label) : Prop :=
  let c := config.state
  ∀ req ∈ upgradeCall? label,
    c.Attached req →
    Wants c req →
    c.requests.getLast? = some req ∧
      (Admitted c req ∨ c.requests.head? = some req)

instance (config : Config) (label : Label) :
    Decidable (AsksInPlace config label) := by
  unfold AsksInPlace
  dsimp only
  infer_instance

/-! ## The invariant -/

/-- An admitted request is the first one of the deque. -/
structure Admitting (c : ServerConnection) : Prop where
  headed : ∀ req, (c.store req).routed = true → (c.store req).head.isSome = true
  fresh : ∀ req, c.nextId ≤ req → (c.store req).routed = false
  first :
    ∀ req ∈ c.requests, Admitted c req → c.requests.head? = some req
  inPlace : UpgradesInPlace c

/-- The deque is the same, and what `on_read` knows of the requests. -/
structure SameHeads (c next : ServerConnection) : Prop where
  requests : next.requests = c.requests
  nextId : next.nextId = c.nextId
  routed : ∀ req, (next.store req).routed = (c.store req).routed
  head : ∀ req, (next.store req).head = (c.store req).head
  inPlace : UpgradesInPlace c → UpgradesInPlace next

namespace SameHeads

theorem refl (c : ServerConnection) : SameHeads c c :=
  ⟨rfl, rfl, fun _ => rfl, fun _ => rfl, id⟩

theorem trans
    {first second third : ServerConnection}
    (one : SameHeads first second)
    (two : SameHeads second third) :
    SameHeads first third where
  requests := two.requests.trans one.requests
  nextId := two.nextId.trans one.nextId
  routed req := (two.routed req).trans (one.routed req)
  head req := (two.head req).trans (one.head req)
  inPlace holds := two.inPlace (one.inPlace holds)

theorem emit
    (c : ServerConnection)
    {event : Event}
    (other : ∀ message, event ≠ .threw (.logicError message)) :
    SameHeads c (c.emit event) := by
  refine ⟨rfl, rfl, fun _ => rfl, fun _ => rfl, fun holds message member => ?_⟩
  rcases List.mem_append.mp member with old | new
  · exact holds message old
  · exact other message (List.mem_singleton.mp new).symm

theorem setRequest
    (c : ServerConnection)
    (req : Nat)
    (request : ServerRequest)
    (routed : request.routed = (c.store req).routed)
    (head : request.head = (c.store req).head) :
    SameHeads c (c.setRequest req request) := by
  refine ⟨rfl, rfl, fun other => ?_, fun other => ?_, id⟩
  · by_cases same : other = req <;> simp [same, routed]
  · by_cases same : other = req <;> simp [same, head]

theorem of_calm
    {c next : ServerConnection}
    (calm : Calm c next) :
    SameHeads c next := by
  induction calm with
  | refl c =>
      exact refl c
  | trans _ _ one two =>
      exact one.trans two
  | emit c isMinor =>
      refine emit c fun message isThrow => ?_
      rw [isThrow] at isMinor
      cases isMinor
  | write c piece =>
      have wrote : SameHeads c (c.emit (.wrote piece)) := emit c (by simp)
      exact ⟨rfl, rfl, fun _ => rfl, fun _ => rfl, wrote.inPlace⟩
  | readIgnore c =>
      have ignored : SameHeads c (c.emit .readIgnored) := emit c (by simp)
      exact ⟨rfl, rfl, fun _ => rfl, fun _ => rfl, ignored.inPlace⟩
  | setRequest c req _ _ routed head _ =>
      exact setRequest c req _ routed head
  | flags c processed closing stopping =>
      exact ⟨rfl, rfl, fun _ => rfl, fun _ => rfl, id⟩

theorem cleanupRequest
    (c : ServerConnection)
    (req : Nat)
    (rest : List Nat) :
    SameHeads { c with requests := rest } (c.cleanupRequest req rest) := by
  have detached :
      SameHeads { c with requests := rest }
        (({ c with requests := rest } : ServerConnection).setRequest req
          { c.store req with connection := false }) :=
    setRequest _ _ _ rfl rfl
  exact detached.trans (emit _ (by simp))

theorem idles
    {c next : ServerConnection}
    (idles : Idles c next) :
    SameHeads c next := by
  cases idles with
  | busy _ | already _ _ _ =>
      exact refl c
  | arms _ _ _ =>
      exact ⟨rfl, rfl, fun _ => rfl, fun _ => rfl, id⟩

theorem closes
    {c middle next : ServerConnection}
    {cause : Cause}
    {error : Option ErrorCode}
    {soft : Bool}
    {frames : List Frame}
    (closes : Closes c cause middle error soft)
    (executed : middle.doClose error soft = .next next frames) :
    SameHeads c next := by
  have reached : SameHeads c middle := by
    cases closes <;> exact ⟨rfl, rfl, fun _ => rfl, fun _ => rfl, id⟩
  have closed : SameHeads middle (middle.emit (.closed soft)) :=
    emit middle (by simp)
  refine reached.trans (closed.trans ?_)
  cases soft with
  | true | false =>
      cases executed
      exact ⟨rfl, rfl, fun _ => rfl, fun _ => rfl, id⟩

end SameHeads

section

variable {c next : ServerConnection} {stack : List Frame}

theorem Admitting.same
    (admitting : Admitting c)
    (same : SameHeads c next) :
    Admitting next where
  headed req routed := by
    rw [same.routed] at routed
    rw [same.head]
    exact admitting.headed req routed
  fresh req new := by
    rw [same.nextId] at new
    rw [same.routed]
    exact admitting.fresh req new
  first req member admitted := by
    rw [same.requests] at member ⊢
    refine admitting.first req member ?_
    simpa [Admitted, ServerRequest.headers, same.routed, same.head]
      using admitted
  inPlace := same.inPlace admitting.inPlace

/-- The first request leaves the deque. -/
theorem Admitting.tail
    {req : Nat}
    {rest : List Nat}
    (admitting : Admitting c)
    (receiving : Receiving c stack)
    (shape : c.requests = req :: rest)
    (same : SameHeads { c with requests := rest } next) :
    Admitting next := by
  have left : Admitting { c with requests := rest } := by
    refine ⟨admitting.headed, admitting.fresh, ?_, admitting.inPlace⟩
    intro other member admitted
    have inDeque : other ∈ c.requests := by
      rw [shape]
      exact List.mem_cons_of_mem _ member
    have first := admitting.first other inDeque admitted
    have sorted := receiving.sorted
    rw [shape] at first sorted
    have isFirst : req = other := by simpa using first
    subst isFirst
    have := (List.pairwise_cons.mp sorted).1 req member
    omega
  exact left.same same

/-- One request alone is the first one. -/
theorem Admitting.alone
    {req : Nat}
    (admitting : Admitting c)
    (same : SameHeads { c with requests := [req] } next) :
    Admitting next := by
  have left : Admitting { c with requests := [req] } := by
    refine ⟨admitting.headed, admitting.fresh, ?_, admitting.inPlace⟩
    intro other member _
    rw [List.mem_singleton.mp member]
    rfl
  exact left.same same

/-- A new request joins the deque behind the others. -/
theorem Admitting.append
    {req : Nat}
    (admitting : Admitting c)
    (known : ∀ req ∈ c.requests, req < c.nextId)
    (isNext : req = c.nextId)
    (requests : next.requests = c.requests ++ [req])
    (nextId : next.nextId = c.nextId + 1)
    (others : ∀ other, other ≠ req → next.store other = c.store other)
    (unrouted : (next.store req).routed = false)
    (inPlace : UpgradesInPlace next) :
    Admitting next where
  headed other routed := by
    by_cases same : other = req
    · subst same
      rw [unrouted] at routed
      cases routed
    · rw [others other same] at routed ⊢
      exact admitting.headed other routed
  fresh other new := by
    have different : other ≠ req := by omega
    rw [others other different]
    exact admitting.fresh other (by omega)
  first other member admitted := by
    rw [requests] at member ⊢
    rcases List.mem_append.mp member with old | new
    · have below := known other old
      have different : other ≠ req := by omega
      unfold Admitted at admitted
      rw [others other different] at admitted
      have first := admitting.first other old admitted
      rw [List.head?_append_of_ne_nil _ (List.ne_nil_of_mem old)]
      exact first
    · have isNew : other = req := by simpa using new
      subst isNew
      have routed := admitted.1
      rw [unrouted] at routed
      cases routed
  inPlace := inPlace

end

theorem Parses.inPlace
    {c next : ServerConnection}
    {result : Parsed}
    {req : Nat}
    (parses : Parses c result next req)
    (inPlace : UpgradesInPlace c) :
    UpgradesInPlace next := by
  intro message member
  refine inPlace message ?_
  obtain ⟨_, _, ⟨_, _, _, trace⟩ | ⟨_, _, _, _, trace⟩⟩ := parses.origin <;>
    rw [trace] at member <;> split at member <;> simpa using member

/-- Parsing keeps the order of admission. -/
theorem Admitting.parse
    {c next : ServerConnection}
    {result : Parsed}
    {rest : List Parsed}
    {req : Nat}
    {below : List Frame}
    (admitting : Admitting c)
    (receiving : Receiving c (.onRead (result :: rest) :: below))
    (parses : Parses c result next req) :
    Admitting next ∧ req ∈ next.requests := by
  have inPlace := parses.inPlace admitting.inPlace
  obtain ⟨base, stored, origin⟩ := parses.origin
  obtain ⟨_, joins⟩ := receiving.joins parses
  have member : req ∈ next.requests := by
    rcases joins with ⟨_, last, requests⟩ | ⟨_, _, requests⟩ | ⟨_, _, requests⟩
    · rw [requests]
      exact List.mem_of_getLast? last
    · simp [requests]
    · simp [requests]
  refine ⟨?_, member⟩
  rcases origin with
    ⟨parsing, rfl, nextId, _⟩ | ⟨idle, rfl, isNext, nextId, _⟩
  · -- the parser goes on with a request, whose headers it may learn
    have known :
        ∀ other,
          (next.store other).routed = (c.store other).routed ∧
            ((c.store other).routed = true →
              (next.store other).head = (c.store other).head) := by
      intro other
      by_cases same : other = req
      · subst same
        refine ⟨by simp [stored], fun routed => ?_⟩
        obtain ⟨head, isHead⟩ :=
          Option.isSome_iff_exists.mp (admitting.headed other routed)
        simp [stored, isHead]
      · rw [parses.others other same]
        exact ⟨rfl, fun _ => rfl⟩
    refine ⟨fun other routed => ?_, fun other new => ?_, ?_, inPlace⟩
    · rw [(known other).1] at routed
      rw [(known other).2 routed]
      exact admitting.headed other routed
    · rw [(known other).1]
      exact admitting.fresh other (by omega)
    · intro other inDeque admitted
      have routed := (known other).1.symm.trans admitted.1
      have wasAdmitted : Admitted c other := by
        refine ⟨routed, ?_⟩
        have spelled := admitted.2
        unfold ServerRequest.headers at spelled ⊢
        rwa [(known other).2 routed] at spelled
      rcases joins with
        ⟨_, last, requests⟩ | ⟨_, _, requests⟩ | ⟨none, _, _⟩
      · rw [requests] at inDeque ⊢
        exact admitting.first other inDeque wasAdmitted
      · rw [requests] at inDeque ⊢
        rw [List.mem_singleton.mp inDeque]
        rfl
      · rw [parsing] at none
        cases none
  · rcases joins with ⟨some, _, _⟩ | ⟨some, _, _⟩ | ⟨_, _, requests⟩
    · rw [idle] at some
      cases some
    · rw [idle] at some
      cases some
    · exact admitting.append receiving.requestsBelow isNext requests nextId parses.others
        (by simp [stored]) inPlace

theorem Admitting.admits
    {parsed next : ServerConnection}
    {result : Parsed}
    {rest : List Parsed}
    {req : Nat}
    {frames : List Frame}
    (admitting : Admitting parsed)
    (member : req ∈ parsed.requests)
    (headed : result.head?.isSome = true → (parsed.store req).head.isSome = true)
    (below : req < parsed.nextId)
    (admits : Admits parsed result rest req next frames) :
    Admitting next := by
  cases admits with
  | error _ | headers _ | refuses _ _ _ | again _ _ =>
      exact admitting.same (SameHeads.refl _)
  | routes hasHead notBehind _ =>
      have stored :
          ∀ other,
            (((parsed.setRequest req
                { parsed.store req with routed := true }).store other).head =
              (parsed.store other).head) ∧
            (other ≠ req →
              ((parsed.setRequest req
                { parsed.store req with routed := true }).store other).routed =
                (parsed.store other).routed) := by
        intro other
        by_cases same : other = req <;> simp [same]
      refine ⟨fun other routed => ?_, fun other new => ?_, ?_, admitting.inPlace⟩
      · rw [(stored other).1]
        by_cases same : other = req
        · rw [same]
          exact headed hasHead
        · rw [(stored other).2 same] at routed
          exact admitting.headed other routed
      · have new : parsed.nextId ≤ other := new
        have different : other ≠ req := by omega
        rw [(stored other).2 different]
        exact admitting.fresh other new
      · intro other inDeque admitted
        have spelled := admitted.2
        unfold ServerRequest.headers at spelled
        rw [(stored other).1] at spelled
        by_cases same : other = req
        · subst same
          -- `on_read` has just found it alone
          change parsed.requests.head? = some other
          have short : ¬ 1 < parsed.requests.length :=
            fun long => notBehind ⟨long, spelled⟩
          cases shape : parsed.requests with
          | nil =>
              rw [shape] at member
              cases member
          | cons front others =>
              have none : others = [] := by
                rw [shape] at short
                simpa using short
              rw [shape, none, List.mem_singleton] at member
              rw [member]
              rfl
        · refine admitting.first other inDeque ⟨?_, spelled⟩
          rw [← (stored other).2 same]
          exact admitted.1

theorem Admitting.fails
    {c next : ServerConnection}
    {req : Nat}
    (admitting : Admitting c)
    (known : ∀ req ∈ c.requests, req < c.nextId)
    (fails : ReadFails c next req) :
    Admitting next := by
  rcases fails.origin with
    ⟨last, _, requests, nextId, trace, stored⟩ |
      ⟨_, isNext, requests, nextId, trace, stored⟩
  · refine admitting.same
      ⟨requests, nextId, fun other => ?_, fun other => ?_, fun inPlace => ?_⟩
    · by_cases same : other = req
      · rw [same, stored]
      · rw [fails.others other same]
    · by_cases same : other = req
      · rw [same, stored]
      · rw [fails.others other same]
    · unfold UpgradesInPlace
      rw [trace]
      exact inPlace
  · refine admitting.append known isNext requests nextId fails.others
      (by simp [stored]) ?_
    intro message member
    rw [trace] at member
    exact admitting.inPlace message (by simpa using member)

/-- No deed breaks the order of admission. -/
theorem Admitting.step
    {c next : ServerConnection}
    {cause : Cause}
    {below frames : List Frame}
    (admitting : Admitting c)
    (receiving : Receiving c (cause.stack ++ below))
    (deed : Deed c cause next frames) :
    Admitting next := by
  have emits :
      ∀ {event : Event},
        (∀ message, event ≠ .threw (.logicError message)) →
        Admitting (c.emit event) :=
    fun other => admitting.same (SameHeads.emit c other)
  cases deed with
  | rests _ | dropped _ | delivers _ | takesUp _ _ _ _ | notifies _
  | receives _ _ =>
      exact admitting.same (SameHeads.refl c)
  | fires callback =>
      exact emits (by simp)
  | removes _ =>
      exact emits (by simp)
  | parses admits =>
      rename_i result rest
      have parses := parseRequest_parses c result
      have nothing : below = [] := (receiving.joins parses).1
      subst nothing
      obtain ⟨parsed, member⟩ :=
        admitting.parse receiving parses
      obtain ⟨base, stored, origin⟩ := parses.origin
      refine parsed.admits member (fun headed => ?_) ?_ admits
      · rw [stored]
        simp [headed]
      · rcases origin with ⟨parsing, _, nextId, _⟩ | ⟨_, _, _, nextId, _⟩
        · have := (receiving.parsingNewest _ parsing).1
          omega
        · omega
  | goesOn goesOn =>
      cases goesOn with
      | unfinished | finishes _ | next _ _ _ =>
          exact admitting.same (SameHeads.refl c)
      | stops _ _ =>
          exact admitting.same (SameHeads.of_calm (.readIgnore c))
  | reports _ _ | ignores =>
      exact admitting.same (SameHeads.of_calm (.readIgnore c))
  | answers _ _ _ _ =>
      exact admitting.same (SameHeads.of_calm (.takeResponse c _ _))
  | marks _ =>
      exact admitting.same (SameHeads.of_calm (.setResponse c _ _))
  | writes shape stored writes =>
      cases writes with
      | finish writesHead _ =>
          exact admitting.same (SameHeads.of_calm (.writesHead writesHead))
      | flush writesHead _ =>
          exact admitting.same
            (SameHeads.of_calm
              ((Calm.writesHead writesHead).trans (.writeChunks _ _ _)))
      | hold nonempty either =>
          rename_i req rest given
          refine admitting.tail receiving shape ?_
          have wrote :=
            SameHeads.of_calm
              ((Calm.writeHead c req (c.prepared given).withoutTmpChunks).trans
                (.startClosing _ req))
          exact ⟨rfl, wrote.nextId, wrote.routed, wrote.head, wrote.inPlace⟩
  | waits _ _ _ | enables _ =>
      exact admitting.same (SameHeads.setRequest c _ _ rfl rfl)
  | leaves shape _ _ =>
      exact admitting.tail receiving shape (SameHeads.cleanupRequest c _ _)
  | returns _ _ _ idles =>
      exact admitting.same (SameHeads.idles idles)
  | closes closes executed =>
      exact admitting.same (SameHeads.closes closes executed)
  | pops shape =>
      rename_i error _ req rest
      have dropped :
          SameHeads (c.cleanupRequest req rest)
            ((c.cleanupRequest req rest).emit (.dropped req error)) :=
        SameHeads.emit _ (by simp)
      exact admitting.tail receiving shape
        ((SameHeads.cleanupRequest c req rest).trans dropped)
  | finishesHeld _ _ =>
      exact admitting.alone (SameHeads.refl _)
  | flushesHeld _ _ =>
      exact admitting.alone (SameHeads.of_calm (.writeChunks _ _ _))
  | shutsDown _ =>
      have stopped :
          SameHeads c
            { c.stopIdleTimer with
              stream := { c.stream with listener := false } } :=
        ⟨rfl, rfl, fun _ => rfl, fun _ => rfl, id⟩
      exact admitting.same (stopped.trans (SameHeads.emit _ (by simp)))
  | upgrades attached wants alone =>
      rename_i req
      have handed :
          SameHeads c
            (({ c with
              stream := { c.stream with listener := false }
              idleTimer := none } : ServerConnection).emit (.upgraded req)) := by
        have upgraded : SameHeads c (c.emit (.upgraded req)) :=
          SameHeads.emit c (by simp)
        exact ⟨rfl, rfl, fun _ => rfl, fun _ => rfl, upgraded.inPlace⟩
      have left :
          SameHeads { c with requests := [] }
            ((({ c with
              stream := { c.stream with listener := false }
              idleTimer := none } : ServerConnection).emit
                (.upgraded req)).cleanupRequest req []) := by
        refine SameHeads.trans ?_ (SameHeads.cleanupRequest _ req [])
        exact ⟨rfl, rfl, handed.routed, handed.head, handed.inPlace⟩
      exact admitting.tail receiving alone left
  | stops _ =>
      exact admitting.same ⟨rfl, rfl, fun _ => rfl, fun _ => rfl, id⟩
  | continues _ _ =>
      exact admitting.same (SameHeads.of_calm (.write c _))
  | sendsChunk _ sends =>
      exact admitting.same (SameHeads.of_calm (.sendsChunk sends))
  | sendsFinal _ sends =>
      exact admitting.same (SameHeads.of_calm (.sendsFinal sends))
  | fails _ fails =>
      have ended :
          SameHeads c { c with stream := { c.stream with ended := true } } :=
        ⟨rfl, rfl, fun _ => rfl, fun _ => rfl, id⟩
      exact (admitting.same ended).fails receiving.requestsBelow fails
  | written _ _ idles =>
      have counted :
          SameHeads c
            { c with
              stream :=
                { c.stream with writeQueue := c.stream.writeQueue - 1 } } :=
        ⟨rfl, rfl, fun _ => rfl, fun _ => rfl, id⟩
      exact admitting.same (counted.trans (SameHeads.idles idles))

/-! ## The exception -/

/-- Only `upgrade` throws the `std::logic_error`, where the request is not alone. -/
theorem accept_misplaced
    {c : ServerConnection}
    {input : Input}
    {top : Option Frame}
    {message : String}
    (accepted :
      accept input top c =
        some (.raise (c.emit (.threw (.logicError message))))) :
    ∃ req,
      input = .upgrade req ∧ c.Attached req ∧ Wants c req ∧
        c.requests ≠ [req] := by
  have different :
      ∀ {other : String},
        c.emit (.threw (.logicError message)) ≠
          c.emit (.threw (.httpError other)) := by
    intro other same
    have traces := congrArg ServerConnection.trace same
    simp [emit] at traces
  have sends :
      ∀ {req : Nat} {send : ServerResponse → Step},
        (∀ response next, send response ≠ .raise next) →
        c.responseSend req send ≠
          .raise (c.emit (.threw (.logicError message))) := by
    intro req send quiet executed
    unfold responseSend at executed
    split at executed
    · cases executed
    · split at executed
      · exact different (CallMachine.Outcome.raise.inj executed).symm
      · split at executed
        · exact quiet _ _ executed
        · cases executed
  cases input with
  | upgrade req =>
      simp only [accept, Option.some.injEq, requestUpgrade] at accepted
      split at accepted
      · cases accepted
      · rename_i attached
        split at accepted
        · cases accepted
        · rename_i wants
          unfold ServerConnection.upgrade at accepted
          split at accepted
          · cases accepted
          · rename_i notAlone
            exact ⟨req, rfl, by simpa [Attached] using attached,
              by simpa [Wants] using wants, notAlone⟩
  | respond req response =>
      simp only [accept] at accepted
      split at accepted
      · cases accepted
      · simp only [Option.some.injEq, requestRespond] at accepted
        split at accepted
        · exact (different (respond_raise accepted).2).elim
        · cases accepted
  | sendContinue req =>
      simp only [accept, Option.some.injEq, requestSendContinue,
        sendContinue] at accepted
      split at accepted
      · split at accepted
        · cases accepted
        · split at accepted
          · cases accepted
          · split at accepted
            · cases accepted
            · split at accepted
              · exact (different
                  (CallMachine.Outcome.raise.inj accepted).symm).elim
              · cases accepted
      · cases accepted
  | sendChunk req data =>
      refine (sends (fun response next => ?_) (Option.some.inj accepted)).elim
      unfold sendChunk
      dsimp only
      split
      · simp
      · split
        · simp
        · split <;> simp
  | sendFinalChunk req data =>
      refine (sends (fun response next => ?_) (Option.some.inj accepted)).elim
      unfold sendFinalChunk
      dsimp only
      split
      · simp
      · split <;> simp
  | drop req =>
      simp only [accept, Option.some.injEq, requestDrop] at accepted
      split at accepted <;> cases accepted
  | enablePartial req | close error | shutdown error =>
      cases accepted
  | gracefulStop =>
      simp only [accept, Option.some.injEq, gracefulStop] at accepted
      split at accepted <;> cases accepted
  | onRead buf | onEof | onShutdown | onConnectionError error =>
      cases top <;> simp only [accept, reduceCtorEq] at accepted
      split at accepted <;> cases accepted
  | onReadError error =>
      cases top <;> simp only [accept, reduceCtorEq] at accepted
      split at accepted
      · simp only [Option.some.injEq, onReadError] at accepted
        split at accepted <;> cases accepted
      · cases accepted
  | onWrite error =>
      cases top <;> simp only [accept, reduceCtorEq] at accepted
      split at accepted
      · cases error with
        | some error =>
            cases accepted
        | none =>
            exact (checkIfIdle_ne_raise _ _ (Option.some.inj accepted)).elim
      · cases accepted
  | idleTimeout =>
      cases top <;> simp only [accept, reduceCtorEq] at accepted
      split at accepted
      · simp only [Option.some.injEq, onIdleTimeout] at accepted
        split at accepted <;> cases accepted
      · cases accepted

/-- A request that is the first and the last one of the deque is alone. -/
theorem Receiving.only
    {c : ServerConnection}
    {stack : List Frame}
    {req : Nat}
    (receiving : Receiving c stack)
    (first : c.requests.head? = some req)
    (last : c.requests.getLast? = some req) :
    c.requests = [req] := by
  have sorted := receiving.sorted
  cases shape : c.requests with
  | nil =>
      rw [shape] at first
      cases first
  | cons front rest =>
      rw [shape] at first last sorted
      cases first
      cases rest with
      | nil =>
          rfl
      | cons second others =>
          rw [List.getLast?_cons_cons] at last
          have := (List.pairwise_cons.mp sorted).1 req (List.mem_of_getLast? last)
          omega

/-! ## Every run -/

/-- Every permitted step keeps the upgrades in place. -/
theorem admitting_preserved :
    machine.Preserves AsksInPlace
      (fun c stack => Receiving c stack ∧ Admitting c) := by
  refine preserves_of_deeds ?_ ?_ ?_
  · exact fun cause below c next frames _ _ receiving admitting deed =>
      admitting.step receiving deed
  · exact fun callback rest c admitting => admitting.same (SameHeads.refl c)
  · intro input stack c exception permitted receiving accepted admitting
    cases exception with
    | httpError message | unchecked error =>
        exact admitting.same (SameHeads.emit c (by simp))
    | logicError message =>
        obtain ⟨req, rfl, attached, wants, notAlone⟩ :=
          accept_misplaced accepted
        obtain ⟨last, either⟩ := permitted req rfl attached wants
        refine (notAlone (receiving.only ?_ last)).elim
        rcases either with admitted | first
        · exact admitting.first req (List.mem_of_getLast? last) admitted
        · exact first

theorem admitting_initial (config : ConnectionConfig) :
    Admitting (initial config) := by
  constructor <;> simp [initial, UpgradesInPlace]

/-- Where upgrades are asked for in place, none of them throws. -/
theorem upgradesInPlace_of_asksInPlace
    {config : ConnectionConfig}
    {labels : List Label}
    {final : Config}
    (ran : run? config labels = some final)
    (asks : machine.Guarded AsksInPlace (start config) labels) :
    UpgradesInPlace final.state := by
  have begins :
      Receiving (start config).state (start config).stack ∧
        Admitting (start config).state :=
    ⟨receiving_initial config, admitting_initial config⟩
  exact (admitting_preserved.run begins asks ran).2.inPlace

/-- An upgrade request is routed, and `route_event` upgrades it. -/
def upgradedOnRoute : List Label :=
  .input (.onRead [.done { connection := "upgrade" }]) ::
    [.tick, .tick, .input (.upgrade 0), .tick, .ret]

theorem upgradesInPlace_upgradedOnRoute :
    ∃ final,
      run? {} upgradedOnRoute = some final ∧ UpgradesInPlace final.state := by
  have asks : machine.Guarded AsksInPlace (start {}) upgradedOnRoute := by
    decide
  have ran : run? {} upgradedOnRoute = some _ := rfl
  exact ⟨_, ran, upgradesInPlace_of_asksInPlace ran asks⟩

/-- A request for an upgrade in another spelling arrives behind another one. -/
def upgradedBehind : List Label :=
  [.input (.onRead [.done {}, .done { connection := "Upgrade" }]),
    .tick, .tick, .ret, .tick, .tick, .ret, .tick, .ret, .tick,
    .tick, .tick, .input (.upgrade 1)]

/-- `on_read` admits it, and `upgrade` throws. -/
theorem upgradedBehind_not_upgradesInPlace :
    ∃ final,
      run? {} upgradedBehind = some final ∧ ¬ UpgradesInPlace final.state :=
  ⟨_, rfl, fun inPlace => inPlace "should not happen" (by decide)⟩

end UniEventHttp.ServerConnection
