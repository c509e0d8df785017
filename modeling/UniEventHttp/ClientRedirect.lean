import UniEventHttp.ErasingLoop
import UniEventHttp.ClientDeeds

namespace UniEventHttp.ClientSide.World

/-!
# What a redirect does to a request

`analyze_request` changes the request before it calls `redirect_event`; then a
303 makes it a `GET`, and the client or its pool starts it again.  A request is
sent with the public members that it has when it is started.
-/

/-! ## Before the callback -/

/-- The end of a request calls its response event. -/
theorem finishRequest_frames
    {w next : World}
    {c : Nat}
    {error : Option ErrorCode}
    {frames : List Frame}
    (executed : w.finishRequest c error = .next next frames) :
    ∃ r response ended,
      (w.clients c).request = some r ∧
        frames =
          [.fire (.partialEvent r response ended),
            .fire (.responseEvent r response ended)] := by
  unfold finishRequest at executed
  cases active : (w.clients c).request with
  | none =>
      simp [active] at executed
  | some r =>
      simp only [active] at executed
      split at executed
      · cases executed
      · obtain ⟨middle, _, finished⟩ := Straight.before_next executed
        cases finished
        exact ⟨r, _, _, rfl, rfl⟩

/-- Cancelling calls the response event, or nothing. -/
theorem cancel_frames
    {w next : World}
    {c : Nat}
    {error : Option ErrorCode}
    {frames : List Frame}
    (executed : w.cancel c error = .next next frames) :
    next = w ∧ frames = [] ∧ (w.clients c).request = none ∨
      ∃ r response ended,
        (w.clients c).request = some r ∧
          frames =
            [.fire (.partialEvent r response ended),
              .fire (.responseEvent r response ended)] := by
  unfold cancel at executed
  dsimp only at executed
  split at executed
  · rename_i idle
    cases executed
    exact Or.inl ⟨rfl, rfl, by simpa using idle⟩
  · obtain ⟨r, response, ended, active, shape⟩ := finishRequest_frames executed
    refine Or.inr ⟨r, response, ended, ?_, shape⟩
    simpa [setClient] using active

/-- The request with its next redirect counted, in a `uint16_t`. -/
def counted (request : Request) : Request :=
  { request with
    redirectionCounter := (request.redirectionCounter + 1) % 2 ^ 16 }

/-- A redirect that is to be followed, when `redirect_event` is called. -/
structure Redirects
    (w : World)
    (c r : Nat)
    (response : Response)
    (location : Uri)
    (next : World) : Prop where
  active : (w.clients c).request = some r
  answered : (w.clients c).response = some response
  follows : (w.requests r).followRedirect = true
  isRedirect : isRedirect response.code = true
  located : response.location = some location
  permitted : (w.requests r).redirectionLimit ≠ 0
  within :
    (counted (w.requests r)).redirectionCounter ≤
      (w.requests r).redirectionLimit
  shape :
    next =
      (w.setRequest r ((counted (w.requests r)).redirectedTo location)).setClient c
        { w.clients c with inRedirect := true }

/-- `redirect_event` is called for a redirect that is to be followed. -/
theorem analyzeRequest_redirects
    {w next : World}
    {c r : Nat}
    {response : Response}
    {context : RedirectContext}
    {frames : List Frame}
    (executed :
      w.analyzeRequest c =
        .next next (.fire (.redirectEvent c r response context) :: frames)) :
    frames = [.redirected c] ∧
      context = (w.requests r).redirectContext ∧
        ∃ location, Redirects w c r response location next := by
  have notCancelled :
      ∀ (middle : World) (error : Option ErrorCode),
        middle.cancel c error ≠
          .next next (.fire (.redirectEvent c r response context) :: frames) := by
    intro middle error cancelled
    rcases cancel_frames cancelled with ⟨_, none, _⟩ | ⟨_, _, _, _, fires⟩
    · cases none
    · cases fires
  unfold analyzeRequest at executed
  dsimp only at executed
  split at executed
  · cases executed
  · cases executed
  · rename_i s answer active answered
    split at executed
    · cases executed
    · split at executed
      · rename_i following
        simp only [Bool.and_eq_true] at following
        split at executed
        · exact (notCancelled _ _ executed).elim
        · rename_i permitted
          split at executed
          · exact (notCancelled _ _ executed).elim
          · rename_i within
            split at executed
            · exact (notCancelled _ _ executed).elim
            · rename_i location hasLocation
              cases executed
              refine ⟨rfl, rfl, location, active, answered, following.1,
                following.2, hasLocation, permitted, Nat.le_of_not_lt within, ?_⟩
              simp [World.setRequest, setClient, counted]
      · obtain ⟨_, _, _, _, fires⟩ := finishRequest_frames executed
        cases fires

/-! ## After the callback -/

/-- The request as it is followed: a 303 makes it a `GET` without a body. -/
def rewritten (w : World) (c r : Nat) (response : Response) : World :=
  let w := w.setClient c { w.clients c with inRedirect := false }
  if response.code = 303 then
    w.setRequest r { w.requests r with method := .get, body := [] }
  else
    w

/-- A redirect that the callback has not cancelled is followed. -/
theorem redirected_follows
    {w : World}
    {c r : Nat}
    {response : Response}
    (active : (w.clients c).request = some r)
    (answered : (w.clients c).response = some response)
    (notCanceled : (w.clients c).redirectCanceled = false) :
    w.redirected c =
      ((w.rewritten c r response).followRedirect c r response).before
        fun w => .next w [] := by
  unfold redirected rewritten
  simp only [notCanceled, Bool.false_eq_true, ↓reduceIte, active, answered]

@[simp] theorem withScheme_withScheme (fields : RequestFields) :
    fields.withScheme.withScheme = fields.withScheme := by
  unfold RequestFields.withScheme
  cases fields.uri with
  | none =>
      rfl
  | some uri =>
      simp only [Option.map_some, Uri.withScheme]
      split <;> simp_all

/-- The public members of all requests are kept, and heads are made of them. -/
structure Carries (w next : World) : Prop where
  fields :
    ∀ r,
      (next.requests r).toRequestFields.withScheme =
        (w.requests r).toRequestFields.withScheme
  trace :
    ∃ events,
      next.trace = w.trace ++ events ∧
        ∀ c connection r fields,
          .wrote c connection (.head r fields) ∈ events →
          fields = (w.requests r).toRequestFields.withScheme

namespace Carries

variable {w next third : World}

theorem refl (w : World) : Carries w w :=
  ⟨fun _ => rfl, [], by simp, by simp⟩

theorem trans
    (one : Carries w next)
    (two : Carries next third) :
    Carries w third where
  fields r := (two.fields r).trans (one.fields r)
  trace := by
    obtain ⟨first, traceOne, headsOne⟩ := one.trace
    obtain ⟨second, traceTwo, headsTwo⟩ := two.trace
    refine ⟨first ++ second, by rw [traceTwo, traceOne, List.append_assoc], ?_⟩
    intro c connection r fields member
    rcases List.mem_append.mp member with early | late
    · exact headsOne c connection r fields early
    · rw [headsTwo c connection r fields late]
      exact one.fields r

/-- Nothing is written, and the public members stay. -/
theorem quiet
    (fields :
      ∀ r, (next.requests r).toRequestFields = (w.requests r).toRequestFields)
    (trace : next.trace = w.trace) :
    Carries w next :=
  ⟨fun r => by rw [fields r], [], by simp [trace], by simp⟩

theorem setEntry
    (w : World)
    (p : Nat)
    (key : NetLoc)
    (entry : Option NetLocList) :
    Carries w (w.setEntry p key entry) :=
  quiet (fun _ => rfl) rfl

theorem setRequest
    (w : World)
    (r : Nat)
    (request : Request)
    (fields : request.toRequestFields = (w.requests r).toRequestFields) :
    Carries w (w.setRequest r request) := by
  refine quiet (fun s => ?_) rfl
  by_cases same : s = r
  · subst s
    simpa [World.setRequest] using fields
  · simp [World.setRequest, same]

theorem started
    {c r : Nat}
    (started : Started w c r next) :
    Carries w next := by
  obtain ⟨tcp, opening, pieces, connects, _, _, trace, ofForm⟩ :=
    started.connects
  refine ⟨fun s => ?_, _, by rw [trace, List.append_assoc], ?_⟩
  · by_cases same : s = r
    · subst s
      rw [started.fields, withScheme_withScheme]
    · rw [started.requests s same]
  · intro d connection s fields member
    simp only [wroteOn, List.mem_append, List.mem_cons, List.mem_flatMap,
      List.mem_map, reduceCtorEq, false_or] at member
    rcases member with isOpening | ⟨_, _, isHead⟩ | ⟨piece, isPiece, _, _, isHead⟩
    · cases connects with
      | reuses _ _ _ =>
          cases isOpening
      | opens _ _ _ _ _ _ =>
          simp at isOpening
    · simp only [Event.wrote.injEq, Piece.head.injEq] at isHead
      obtain ⟨_, _, rfl, rfl⟩ := isHead
      rfl
    · simp only [Event.wrote.injEq] at isHead
      exact ((ofForm piece isPiece).2 s fields isHead.2.2).elim

theorem refused
    {c r : Nat}
    (refused : Refused w c r next) :
    Carries w next := by
  obtain ⟨exception, trace⟩ := refused.trace
  refine ⟨fun s => ?_, _, trace, by simp⟩
  by_cases same : s = r
  · subst s
    rcases refused.request with kept | ⟨_, _, _, linked, _⟩
    · rw [kept]
    · have given :
          (next.requests r).toRequestFields =
            (w.requests r).toRequestFields.withScheme := by
        rw [linked]
        rfl
      rw [given, withScheme_withScheme]
  · rw [refused.requests s same]

theorem putsBack
    {p c : Nat}
    (back : PutsBack w p c next) :
    Carries w next := by
  cases back with
  | starts _ _ begun =>
      exact (setEntry w p _ _).trans (started begun)
  | frees _ _ _ =>
      exact setEntry w p _ _

theorem refusesNext
    {p c : Nat}
    (refuses : RefusesNext w p c next) :
    Carries w next := by
  obtain ⟨entry, place, rest, _, _, isRefused⟩ := refuses
  exact (setEntry w p _ _).trans (refused isRefused)

theorem places
    {p c : Nat}
    {key : NetLoc}
    (found : Places w p key c next) :
    Carries w next := by
  cases found with
  | creates _ =>
      exact quiet (fun _ => rfl) rfl
  | reuses _ _ =>
      exact setEntry w p key _

theorem pooled
    {p r : Nat}
    (pooled : Pooled w p r next) :
    Carries w next := by
  cases pooled with
  | starts found begun =>
      exact (places found).trans (started begun)
  | @queues entry _ _ _ =>
      refine ⟨fun s => ?_, [.queued p r], rfl, by simp⟩
      by_cases same : s = r
      · subst s
        simp [enqueue, emit, World.setRequest, World.setEntry]
      · simp [enqueue, emit, World.setRequest, World.setEntry, same]

theorem poolRefuses
    {p r : Nat}
    (refuses : PoolRefuses w p r next) :
    Carries w next := by
  cases refuses with
  | early exception =>
      exact ⟨fun _ => rfl, [.threw exception], rfl, by simp⟩
  | late isPooled found isRefused =>
      subst isPooled
      have owned :
          Carries w (w.setRequest r { w.requests r with pool := some p }) :=
        setRequest w r _ rfl
      exact (owned.trans (places found)).trans (refused isRefused)

end Carries

/-! ## Header fields in a run -/

/-- A request loses header fields, and its heads are made of those that are left. -/
structure Withholds (r : Nat) (w next : World) : Prop where
  headers : Trims (w.requests r).headers (next.requests r).headers
  heads :
    ∃ events,
      next.trace = w.trace ++ events ∧
        ∀ c connection fields,
          .wrote c connection (.head r fields) ∈ events →
          Trims (w.requests r).headers fields.headers

namespace Withholds

variable {r : Nat} {w next third : World}

theorem refl (r : Nat) (w : World) : Withholds r w w :=
  ⟨.refl _, [], by simp, by simp⟩

theorem trans
    (one : Withholds r w next)
    (two : Withholds r next third) :
    Withholds r w third where
  headers := one.headers.trans two.headers
  heads := by
    obtain ⟨first, traceOne, headsOne⟩ := one.heads
    obtain ⟨second, traceTwo, headsTwo⟩ := two.heads
    refine ⟨first ++ second, by rw [traceTwo, traceOne, List.append_assoc], ?_⟩
    intro c connection fields member
    rcases List.mem_append.mp member with early | late
    · exact headsOne c connection fields early
    · exact one.headers.trans (headsTwo c connection fields late)

/-- Nothing is written, and the header fields stay. -/
theorem quiet
    (headers : (next.requests r).headers = (w.requests r).headers)
    (trace : next.trace = w.trace) :
    Withholds r w next :=
  ⟨headers ▸ .refl _, [], by simp [trace], by simp⟩

theorem emit
    (r : Nat)
    (w : World)
    {event : Event}
    (noHead : ∀ c connection fields, event ≠ .wrote c connection (.head r fields)) :
    Withholds r w (w.emit event) := by
  refine ⟨.refl _, [event], rfl, fun c connection fields member => ?_⟩
  exact (noHead c connection fields (List.mem_singleton.mp member).symm).elim

theorem weak (r : Nat) (w : World) (c : Nat) (value : Bool) :
    Withholds r w (w.weak c value) :=
  quiet rfl rfl

theorem setRequest
    (r : Nat)
    (w : World)
    (s : Nat)
    {request : Request}
    (headers : request.headers = (w.requests s).headers) :
    Withholds r w (w.setRequest s request) := by
  refine quiet ?_ rfl
  by_cases same : r = s
  · subst s
    simpa [World.setRequest] using headers
  · simp [World.setRequest, same]

theorem of_tunes (r : Nat) (tunes : Tunes w next) : Withholds r w next := by
  obtain ⟨events, trace, minor⟩ := tunes.trace
  refine ⟨tunes.headers r, events, trace, fun c connection fields member => ?_⟩
  cases minor _ member

theorem of_carries (r : Nat) (carries : Carries w next) : Withholds r w next := by
  obtain ⟨events, trace, heads⟩ := carries.trace
  refine ⟨?_, events, trace, fun c connection fields member => ?_⟩
  · have headers := congrArg RequestFields.headers (carries.fields r)
    change (next.requests r).headers = (w.requests r).headers at headers
    rw [headers]
    exact .refl _
  · rw [heads c connection r fields member]
    exact .refl _

theorem detached (r : Nat) (w : World) (c : Nat) : Withholds r w (w.detached c) :=
  quiet rfl rfl

theorem leaving (r : Nat) (w : World) (c s : Nat) :
    Withholds r w (w.leaving c s) :=
  (detached r w c).trans (setRequest r _ s rfl)

theorem ending (r : Nat) (w : World) (s : Nat) :
    Withholds r w (w.ending s) := by
  have finished : (w.requests s).finished.headers = (w.requests s).headers := rfl
  refine (setRequest r w s finished).trans (emit r _ ?_)
  rintro c connection fields ⟨⟩

theorem ends
    {c s : Nat}
    (ended : Ends w c s next) :
    Withholds r w next := by
  obtain ⟨_, middle, released, tunes, releases, rfl⟩ := ended
  have left : Withholds r w middle := (detached r w c).trans (of_tunes r tunes)
  refine Withholds.trans (left.trans ?_) (ending r released s)
  cases releases with
  | alone _ =>
      exact .refl r middle
  | back _ putsBack =>
      exact of_carries r (.putsBack putsBack)

theorem follows
    {c s : Nat}
    (followed : Follows w c s next) :
    Withholds r w next := by
  cases followed with
  | same _ tunes started =>
      exact ((leaving r w c s).trans (of_tunes r tunes)).trans
        (of_carries r (.started started))
  | pooled _ _ tunes back pooled =>
      refine ((leaving r w c s).trans (of_tunes r tunes)).trans ?_
      refine (of_carries r (.putsBack back)).trans (Withholds.trans ?_
        (of_carries r (.pooled pooled)))
      exact (weak r _ c true).trans (setRequest r _ s rfl)

theorem act (acts : Act w next) : Withholds r w next := by
  cases acts with
  | tunes tunes =>
      exact of_tunes r tunes
  | ends tunes ended =>
      exact (of_tunes r tunes).trans (ends ended)
  | follows tunes followed =>
      exact (of_tunes r tunes).trans (follows followed)
  | dequeues tunes _ =>
      exact (of_tunes r tunes).trans (ending r _ _)

theorem mishap (fails : Mishap w next) : Withholds r w next := by
  cases fails with
  | tunes tunes =>
      exact of_tunes r tunes
  | ends tunes ended =>
      obtain ⟨_, left, p, leaves, _, refuses⟩ := ended
      exact (of_tunes r tunes).trans (((detached r _ _).trans
        (of_tunes r leaves)).trans (of_carries r (.refusesNext refuses)))
  | restarts tunes _ leaves refused =>
      exact (of_tunes r tunes).trans (((leaving r _ _ _).trans
        (of_tunes r leaves)).trans (of_carries r (.refused refused)))
  | leaves tunes _ _ leaves refuses =>
      exact (of_tunes r tunes).trans (((leaving r _ _ _).trans
        (of_tunes r leaves)).trans (of_carries r (.refusesNext refuses)))
  | pooled tunes _ _ leaves back refuses =>
      refine (of_tunes r tunes).trans (((leaving r _ _ _).trans
        (of_tunes r leaves)).trans ?_)
      exact (of_carries r (.putsBack back)).trans
        ((weak r _ _ true).trans (of_carries r (.poolRefuses refuses)))

/-- Every step does so in which the application does not write into the request. -/
theorem deed
    {cause : Cause}
    (unwritten : ∀ fields, cause ≠ .input (.edit r fields))
    (done : Deed w cause next) :
    Withholds r w next := by
  cases done with
  | act acts =>
      exact act acts
  | mishap fails =>
      exact mishap fails
  | parses _ does =>
      refine Withholds.trans ?_ (does.elim act mishap)
      refine Withholds.trans ?_ (emit r _ (by rintro _ _ _ ⟨⟩))
      exact quiet rfl rfl
  | erases _ _ _ erased =>
      unfold cancelReturn at erased
      dsimp only at erased
      split at erased
      · cases erased
      · split at erased
        · cases erased
          exact quiet rfl rfl
        · cases erased
  | @edits s fields _ =>
      have other : r ≠ s := by
        rintro rfl
        exact unwritten fields rfl
      exact quiet (by simp [World.setRequest, other]) rfl
  | creates _ | limits _ _ | advances _ _ | sweeps _ =>
      exact quiet rfl rfl
  | begins _ started =>
      exact (of_carries r (.started started)).trans
        (emit r _ (by rintro _ _ _ ⟨⟩))
  | refuses _ refused =>
      exact of_carries r (.refused refused)
  | submits offers _ pooled =>
      refine (of_tunes r offers.tunes).trans (Withholds.trans ?_
        ((of_carries r (.pooled pooled)).trans
          (emit r _ (by rintro _ _ _ ⟨⟩))))
      exact setRequest r _ _ rfl
  | rejects offers refuses =>
      exact (of_tunes r offers.tunes).trans (of_carries r (.poolRefuses refuses))
  | delivers _ =>
      refine Withholds.trans ?_ (emit r _ (by rintro _ _ _ ⟨⟩))
      exact quiet rfl rfl
  | rings _ does =>
      refine Withholds.trans ?_ (does.elim act mishap)
      exact setRequest r w _ rfl

end Withholds

/-- The application does not write into the request. -/
def LeavesFields (r : Nat) (labels : List Label) : Prop :=
  ∀ label ∈ labels, ∀ fields, label ≠ .input (.edit r fields)

/-- So does every run in which the application leaves the request alone. -/
theorem withholds_of_run
    {r : Nat}
    {config final : Config}
    {labels : List Label}
    (leaves : LeavesFields r labels)
    (ran : machine.run? config labels = some final) :
    Withholds r config.state final.state := by
  have guarded :
      ∀ before : Config,
        machine.Guarded
          (Permits fun _ cause => ∀ fields, cause ≠ .input (.edit r fields))
          before labels := by
    clear ran
    induction labels with
    | nil =>
        exact fun _ => trivial
    | cons label rest inductionHypothesis =>
        refine fun before => ⟨?_, fun next _ => inductionHypothesis
          (fun other member => leaves other (List.mem_cons_of_mem _ member)) next⟩
        rintro _ causes fields rfl
        cases causes
        exact leaves _ List.mem_cons_self fields rfl
  have keeps :
      ∀ w cause next,
        (∀ fields, cause ≠ .input (.edit r fields)) →
        Withholds r config.state w →
        Deed w cause next →
        Withholds r config.state next :=
    fun w cause next unwritten holds done => holds.trans (.deed unwritten done)
  exact run_of_deeds keeps (.refl r _) (guarded config) ran

/-! ## Credentials -/

/-- The header fields that carry credentials or name the previous target. -/
def isCredential (name : String) : Bool :=
  ["Authorization", "Cookie", "Host", "Referer"].any (iequals name)

/-- The loop over the header fields: those that it removes, and the others. -/
def stripHeaders (headers : Headers) : Headers × Headers :=
  ErasingLoop.run
    (fun (removed : Headers) field =>
      if isRemovedHeader field.1 then (removed ++ [field], none)
      else (removed, some field))
    [] headers 0

/-- The loop divides the header fields in their order. -/
theorem stripHeaders_eq (request : Request) (location : Uri) :
    stripHeaders request.headers =
      (request.redirectContext.removedHeaders,
        (request.redirectedTo location).headers) := by
  unfold stripHeaders
  rw [ErasingLoop.run_partition fun field : String × String =>
    isRemovedHeader field.1]
  rfl

/--
The request keeps the header fields that carry no credentials, in order, and the
context has the others, the cookies and the TLS context.
-/
structure StripsCredentials
    (before after : Request)
    (context : RedirectContext) : Prop where
  kept :
    after.headers = before.headers.filter fun field => !isCredential field.1
  removed :
    context.removedHeaders =
      before.headers.filter fun field => isCredential field.1
  noCookies : after.cookies = []
  noContext : after.sslCtx = none
  cookies : context.cookies = before.cookies
  sslCtx : context.sslCtx = before.sslCtx

/--
Whatever happens next, no head of the request has a credential, at this redirect or
later, unless the application writes into the request.
-/
def SendsNoCredential (config : Config) (r : Nat) : Prop :=
  ∀ (labels : List Label) (final : Config),
    LeavesFields r labels →
    machine.run? config labels = some final →
    ∃ events,
      final.state.trace = config.state.trace ++ events ∧
        ∀ c connection fields,
          .wrote c connection (.head r fields) ∈ events →
          ∀ field ∈ fields.headers, isCredential field.1 = false

/-- Credentials are spelled as in `analyze_request`. -/
def SpellsCredentials (request : Request) : Prop :=
  ∀ field ∈ request.headers,
    isCredential field.1 = true → isRemovedHeader field.1 = true

theorem isCredential_of_removed
    {name : String}
    (removed : isRemovedHeader name = true) :
    isCredential name = true := by
  simp only [isRemovedHeader, Bool.or_eq_true, beq_iff_eq] at removed
  rcases removed with ((rfl | rfl) | rfl) | rfl <;> decide

theorem isRemovedHeader_iff
    {request : Request}
    (spells : SpellsCredentials request)
    {field : String × String}
    (member : field ∈ request.headers) :
    isRemovedHeader field.1 = isCredential field.1 := by
  cases credential : isCredential field.1 with
  | true =>
      exact spells field member credential
  | false =>
      refine Bool.eq_false_iff.mpr fun removed => ?_
      rw [isCredential_of_removed removed] at credential
      cases credential

/--
Before the callback the credentials are taken out of the request, and they are
not sent, exactly if their names are spelled as in `analyze_request`.
-/
theorem stripsCredentials_iff
    {w next : World}
    {c r : Nat}
    {response : Response}
    {context : RedirectContext}
    {frames : List Frame}
    (executed :
      w.analyzeRequest c =
        .next next (.fire (.redirectEvent c r response context) :: frames)) :
    (StripsCredentials (w.requests r) (next.requests r) context ∧
        ∀ below,
          SendsNoCredential
            { state := next
              stack :=
                .fire (.redirectEvent c r response context) ::
                  (frames ++ below) } r) ↔
      SpellsCredentials (w.requests r) := by
  obtain ⟨_, isContext, location, redirects⟩ :=
    analyzeRequest_redirects executed
  have isNext :
      next.requests r = (counted (w.requests r)).redirectedTo location := by
    rw [redirects.shape]
    simp [setClient, World.setRequest]
  constructor
  · rintro ⟨strips, _⟩ field member credential
    by_contra notRemoved
    have stays : field ∈ (next.requests r).headers := by
      rw [isNext]
      exact List.mem_filter.mpr ⟨member, by simpa using notRemoved⟩
    rw [strips.kept] at stays
    have clean := (List.mem_filter.mp stays).2
    simp [credential] at clean
  · intro spells
    have kept :
        (next.requests r).headers =
          (w.requests r).headers.filter fun field => !isCredential field.1 := by
      rw [isNext]
      exact List.filter_congr fun field member => by
        rw [isRemovedHeader_iff spells member]
    refine ⟨⟨kept, ?_, ?_, ?_, ?_, ?_⟩, ?_⟩
    · rw [isContext]
      exact List.filter_congr fun field member =>
        isRemovedHeader_iff spells member
    · rw [isNext]
      rfl
    · rw [isNext]
      rfl
    · rw [isContext]
      rfl
    · rw [isContext]
      rfl
    · intro below labels final leaves ran
      have withholds := withholds_of_run leaves ran
      obtain ⟨events, trace, heads⟩ := withholds.heads
      refine ⟨events, trace, fun d connection fields head field member => ?_⟩
      rcases heads d connection fields head field member with stays | isAgent
      · rw [kept] at stays
        simpa using (List.mem_filter.mp stays).2
      · rw [isAgent]
        decide

/-- A client that has received a redirect to another host. -/
def redirectedAway (headers : Headers) : World :=
  { initial {} with
    requests := fun _ =>
      { uri := some { scheme := "http", host := "here" }, headers := headers }
    clients := fun _ =>
      { request := some 0
        response := some
          { code := 302
            location := some { scheme := "http", host := "elsewhere" } } } }

/-- The fields of the source's spelling are taken out, wherever they stand. -/
theorem stripsCredentials_redirectedAway :
    ∃ next response context frames,
      (redirectedAway
          [("Cookie", "a=1"), ("Accept", "*/*"), ("Cookie", "b=2")]).analyzeRequest
            0 =
          .next next (.fire (.redirectEvent 0 0 response context) :: frames) ∧
        StripsCredentials
            ((redirectedAway
              [("Cookie", "a=1"), ("Accept", "*/*"), ("Cookie", "b=2")]).requests
                0) (next.requests 0) context ∧
          ∀ below,
            SendsNoCredential
              { state := next
                stack :=
                  .fire (.redirectEvent 0 0 response context) ::
                    (frames ++ below) } 0 := by
  refine ⟨_, _, _, _, rfl, (stripsCredentials_iff rfl).mpr ?_⟩
  unfold SpellsCredentials
  decide

/-- A lower-case name reaches the other host. -/
theorem redirectedAway_not_stripsCredentials :
    ∃ next response context frames,
      (redirectedAway [("authorization", "Basic YTpi")]).analyzeRequest 0 =
          .next next (.fire (.redirectEvent 0 0 response context) :: frames) ∧
        ¬ StripsCredentials
            ((redirectedAway [("authorization", "Basic YTpi")]).requests 0)
            (next.requests 0) context := by
  refine ⟨_, _, _, _, rfl, fun strips => ?_⟩
  have kept := strips.kept
  revert kept
  decide

end UniEventHttp.ClientSide.World
