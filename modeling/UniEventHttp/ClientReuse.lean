import UniEventHttp.ClientProvenance

namespace UniEventHttp.ClientSide.World

/-!
# What a kept connection brings along

A request that is written on a kept connection gets the TLS layer that was set up
for another one.  `Client::request` keeps a connection when the network locations
are equal, and a location has neither the scheme of the uri nor, with an http
proxy, anything but the proxy.

A request that is started while `on_read` loops over a buffer gets the rest of the
buffer, which was received before the request was written.
-/

/-! ## The TLS layer -/

/-- The requests need the same TLS layer. -/
structure SameTls (config : WorldConfig) (one two : RequestFields) : Prop where
  secure : Secure config one ↔ Secure config two
  sslCtx : one.sslCtx = two.sslCtx
  sslCheckCert : one.sslCheckCert = two.sslCheckCert
  host :
    Secure config one → (one.uri.getD {}).host = (two.uri.getD {}).host

/--
The connection was opened by `Client::request` for a request with these fields, with
the TLS layer that it needs.
-/
def OpenedFor
    (config : WorldConfig)
    (history : List Event)
    (c n : Nat)
    (first : RequestFields) : Prop :=
  ∃ opener netloc timeout socks before after,
    history =
      before ++
        .opened c n netloc timeout (config.tlsSetup first) socks ::
          .started c opener :: .wrote c n (.head opener first) :: after

/-- A head is written on a connection whose TLS layer is as the request needs it. -/
def OnFittingTls (config : WorldConfig) (earlier : List Event) : Event → Prop
  | .wrote c n (.head r fields) =>
      ∃ first,
        OpenedFor config (earlier ++ [.wrote c n (.head r fields)]) c n first ∧
          SameTls config first fields
  | _ => True

/--
Each connection is opened once, and all requests that are written on it need the
TLS layer of the one that it was opened for.
-/
structure FaithfulTls (config : WorldConfig) (history : List Event) : Prop where
  once : (history.filterMap opened?).Nodup
  fits : History.Each (OnFittingTls config) history

/-- The client writes a head. -/
def headBy? (event : Event) : Option Nat :=
  (headOn? event).map Prod.fst

/--
Two requests of one location agree on what the location leaves out: whether they are
secure and, behind an http proxy, what else belongs to the TLS layer.
-/
structure AgreesOnTls (config : WorldConfig) (one two : RequestFields) : Prop where
  secure : Secure config one ↔ Secure config two
  behindProxy :
    ThroughProxy config one ∨ ThroughProxy config two →
    one.sslCtx = two.sslCtx ∧ one.sslCheckCert = two.sslCheckCert ∧
      (Secure config one → (one.uri.getD {}).host = (two.uri.getD {}).host)

/--
Whenever a client is given two requests of one location, one right after the other
and the second one with keep-alive, they agree on what the location leaves out.
-/
def AgreesInTurn (config : WorldConfig) (history : List Event) : Prop :=
  ∀ before between after c m n q r last fields,
    history =
      before ++ .wrote c m (.head q last) ::
        (between ++ .wrote c n (.head r fields) :: after) →
    (∀ event ∈ between, headBy? event ≠ some c) →
    config.netloc last = config.netloc fields →
    fields.keepAlive = true →
    AgreesOnTls config last fields

section SameTls

variable {config : WorldConfig} {one two three : RequestFields}

theorem SameTls.refl (config : WorldConfig) (fields : RequestFields) :
    SameTls config fields fields :=
  ⟨Iff.rfl, rfl, rfl, fun _ => rfl⟩

theorem SameTls.trans
    (first : SameTls config one two)
    (second : SameTls config two three) :
    SameTls config one three where
  secure := first.secure.trans second.secure
  sslCtx := first.sslCtx.trans second.sslCtx
  sslCheckCert := first.sslCheckCert.trans second.sslCheckCert
  host isSecure :=
    (first.host isSecure).trans (second.host (first.secure.mp isSecure))

/-- The location says the rest. -/
theorem AgreesOnTls.sameTls
    (agrees : AgreesOnTls config one two)
    (location : config.netloc one = config.netloc two) :
    SameTls config one two := by
  by_cases proxied : ThroughProxy config one ∨ ThroughProxy config two
  · obtain ⟨sslCtx, sslCheckCert, host⟩ := agrees.behindProxy proxied
    exact ⟨agrees.secure, sslCtx, sslCheckCert, host⟩
  · push Not at proxied
    rw [netloc_of_direct proxied.1, netloc_of_direct proxied.2,
      NetLoc.mk.injEq] at location
    obtain ⟨host, _, sslCtx, _, sslCheckCert⟩ := location
    exact ⟨agrees.secure, sslCtx, sslCheckCert, fun _ => host⟩

end SameTls

theorem OpenedFor.extend
    {config : WorldConfig}
    {history : List Event}
    {c n : Nat}
    {first : RequestFields}
    (openedFor : OpenedFor config history c n first)
    (events : List Event) :
    OpenedFor config (history ++ events) c n first := by
  obtain ⟨opener, netloc, timeout, socks, before, after, rfl⟩ := openedFor
  exact ⟨opener, netloc, timeout, socks, before, after ++ events, by simp⟩

/-- Requests that agree in a longer history agree in its first part. -/
theorem AgreesInTurn.front
    {config : WorldConfig}
    {history : List Event}
    (events : List Event)
    (agrees : AgreesInTurn config (history ++ events)) :
    AgreesInTurn config history := by
  intro before between after c m n q r last fields shape
  exact agrees before between (after ++ events) c m n q r last fields
    (by simp [shape])

/-- The client's last head was written on the connection, and fits its TLS layer. -/
def LastFits (w : World) (c n : Nat) : Prop :=
  ∃ q last first before after,
    w.trace = before ++ .wrote c n (.head q last) :: after ∧
      (∀ event ∈ after, headBy? event ≠ some c) ∧
        w.config.netloc last = (w.clients c).netloc ∧
          OpenedFor w.config w.trace c n first ∧
            SameTls w.config first last

/-- All heads fit the TLS layers, and so do the last ones on connections that are kept. -/
structure Fitting (w : World) : Prop where
  current : ∀ c n, (w.clients c).tcp.connection = some n → LastFits w c n
  fits : History.Each (OnFittingTls w.config) w.trace

theorem onFittingTls_of_spare
    {event : Event}
    (spare : headOn? event = none)
    (config : WorldConfig)
    (earlier : List Event) :
    OnFittingTls config earlier event := by
  unfold OnFittingTls
  split
  · cases spare
  · trivial

theorem each_fitting
    {config : WorldConfig}
    {history events : List Event}
    (fits : History.Each (OnFittingTls config) history)
    (spare : ∀ event ∈ events, headOn? event = none) :
    History.Each (OnFittingTls config) (history ++ events) :=
  fits.extend fun event member earlier =>
    onFittingTls_of_spare (spare event member) config earlier

theorem headOn?_of_spare
    {event : Event}
    (spare : isPlugging event = false) :
    headOn? event = none := by
  cases event with
  | wrote c n piece =>
      cases piece <;> first | rfl | cases spare
  | _ =>
      rfl

section Fitting

variable {w next : World}

theorem LastFits.extend
    {events : List Event}
    {c n : Nat}
    (lastFits : LastFits w c n)
    (config : next.config = w.config)
    (netloc : (next.clients c).netloc = (w.clients c).netloc)
    (trace : next.trace = w.trace ++ events)
    (headless : ∀ event ∈ events, headBy? event ≠ some c) :
    LastFits next c n := by
  obtain ⟨q, last, first, before, after, shape, none, location, openedFor, same⟩ :=
    lastFits
  refine ⟨q, last, first, before, after ++ events, by simp [trace, shape],
    fun event member => ?_, by rw [config, netloc, location], ?_,
    by rw [config]; exact same⟩
  · exact (List.mem_append.mp member).elim (none event) (headless event)
  · rw [config, trace]
    exact openedFor.extend events

/-- No head is written, and connections are kept as they are or given up. -/
theorem Fitting.lasts
    {events : List Event}
    (fitting : Fitting w)
    (config : next.config = w.config)
    (kept :
      ∀ c n,
        (next.clients c).tcp.connection = some n →
        (w.clients c).tcp.connection = some n ∧
          (next.clients c).netloc = (w.clients c).netloc)
    (trace : next.trace = w.trace ++ events)
    (spare : ∀ event ∈ events, headOn? event = none) :
    Fitting next where
  current c n connection := by
    obtain ⟨was, netloc⟩ := kept c n connection
    refine (fitting.current c n was).extend config netloc trace ?_
    intro event member
    simp [headBy?, spare event member]
  fits := by
    rw [config, trace]
    exact each_fitting fitting.fits spare

/-- The TLS layer of the connection fits the request that `Client::request` writes. -/
theorem Fitting.fits_started
    {c n r : Nat}
    {fields : RequestFields}
    {tcp : Tcp}
    {opening : List Event}
    (fitting : Fitting w)
    (connects : Connects w c fields tcp opening)
    (connection : tcp.connection = some n)
    (agrees :
      AgreesInTurn w.config
        (w.trace ++ opening ++ [.started c r, .wrote c n (.head r fields)])) :
    OnFittingTls w.config (w.trace ++ opening ++ [.started c r])
      (.wrote c n (.head r fields)) := by
  cases connects with
  | reuses _ netloc keepAlive =>
      obtain ⟨q, last, first, before, after, shape, none, location, openedFor,
        same⟩ := fitting.current c n connection
      have inTurn : AgreesOnTls w.config last fields := by
        refine agrees before (after ++ [.started c r]) [] c n n q r last fields
          (by simp [shape]) (fun event member => ?_) (location.trans netloc)
          keepAlive
        rcases List.mem_append.mp member with old | new
        · exact none event old
        · rw [List.mem_singleton.mp new]
          simp [headBy?, headOn?]
      refine ⟨first, ?_, same.trans (inTurn.sameTls (location.trans netloc))⟩
      rw [List.append_nil, List.append_assoc]
      exact openedFor.extend _
  | opens tcp timeout _ isNext _ tls =>
      obtain rfl : n = w.nextConnection := by
        simpa [connection] using isNext
      refine ⟨fields, ⟨r, w.config.netloc fields, timeout, tcp.socks, w.trace, [],
        ?_⟩, .refl w.config fields⟩
      simp [tls]

theorem headOn?_of_opening
    {c : Nat}
    {fields : RequestFields}
    {tcp : Tcp}
    {opening : List Event}
    (connects : Connects w c fields tcp opening) :
    ∀ event ∈ opening, headOn? event = none := by
  cases connects with
  | reuses _ _ _ => simp
  | opens _ _ _ _ _ _ => simp [headOn?]

theorem headOn?_of_pieces
    (c : Nat)
    (connection : Option Nat)
    {pieces : List Piece}
    (body : ∀ piece ∈ pieces, ∀ other fields, piece ≠ .head other fields) :
    ∀ event ∈ pieces.flatMap (wroteOn c connection), headOn? event = none := by
  intro event member
  simp only [wroteOn, List.mem_flatMap, List.mem_map] at member
  obtain ⟨piece, isPiece, n, _, rfl⟩ := member
  cases piece with
  | head s fields =>
      exact (body _ isPiece s fields rfl).elim
  | _ =>
      rfl

theorem Fitting.started
    {c r : Nat}
    (fitting : Fitting w)
    (started : Started w c r next)
    (agrees : AgreesInTurn w.config next.trace) :
    Fitting next := by
  obtain ⟨tcp, opening, pieces, connects, client, _, trace, body⟩ :=
    started.connects
  have tail :=
    headOn?_of_pieces c tcp.connection
      fun piece isPiece => (body piece isPiece).2
  generalize pieces.flatMap (wroteOn c tcp.connection) = written at trace tail
  have begun :
      History.Each (OnFittingTls w.config)
        (w.trace ++ opening ++ [.started c r]) := by
    rw [List.append_assoc]
    refine each_fitting fitting.fits fun event member => ?_
    rcases List.mem_append.mp member with opened | isStart
    · exact headOn?_of_opening connects event opened
    · rw [List.mem_singleton.mp isStart]
      rfl
  have elsewhere :
      ∀ d n,
        d ≠ c →
        (next.clients d).tcp.connection = some n →
        LastFits next d n := by
    intro d n other connection
    have same := started.clients d other
    rw [same] at connection
    refine (fitting.current d n connection).extend started.config
      (by rw [same]) (by rw [trace, List.append_assoc]) fun event member => ?_
    simp only [List.mem_append, List.mem_cons, wroteOn, List.mem_map] at member
    rcases member with opened | rfl | ⟨m, _, rfl⟩ | isTail
    · simp [headBy?, headOn?_of_opening connects event opened]
    · simp [headBy?, headOn?]
    · simpa [headBy?, headOn?] using other.symm
    · simp [headBy?, tail event isTail]
  cases connection : tcp.connection with
  | none =>
      have trace : next.trace = w.trace ++ opening ++ [.started c r] ++ written := by
        simp [trace, connection, wroteOn]
      refine ⟨fun d n isConnection => ?_, ?_⟩
      · by_cases same : d = c
        · subst d
          rw [client] at isConnection
          simp [connection] at isConnection
        · exact elsewhere d n same isConnection
      · rw [started.config, trace]
        exact each_fitting begun tail
  | some n =>
      have trace :
          next.trace =
            w.trace ++ opening ++ [.started c r] ++
              [.wrote c n (.head r (w.requests r).toRequestFields.withScheme)] ++
                written := by
        simp [trace, connection, wroteOn]
      have fits :=
        fitting.fits_started connects connection
          (AgreesInTurn.front written (by simpa [trace] using agrees))
      refine ⟨fun d m isConnection => ?_, ?_⟩
      · by_cases same : d = c
        · subst d
          obtain rfl : m = n := by
            rw [client] at isConnection
            simpa [connection, eq_comm] using isConnection
          obtain ⟨first, openedFor, sameTls⟩ := fits
          refine ⟨r, (w.requests r).toRequestFields.withScheme, first,
            w.trace ++ opening ++ [.started c r], written, by simp [trace], fun event member => by simp [headBy?, tail event member],
            by rw [started.client, started.config], ?_,
            by rw [started.config]; exact sameTls⟩
          rw [started.config, trace]
          exact openedFor.extend written
        · exact elsewhere d m same isConnection
      · rw [started.config, trace]
        exact each_fitting (History.each_snoc.mpr ⟨begun, fits⟩) tail

end Fitting

/-- What a request has when its head is written. -/
def headFields? : Event → Option RequestFields
  | .wrote _ _ (.head _ fields) => some fields
  | _ => none

/-- The TLS layer of a connection that is opened. -/
def layer? : Event → Option (Option TlsSetup)
  | .opened _ _ _ _ tls _ => some tls
  | _ => none

/-- A request without TLS is answered, and one with TLS is sent to the same port. -/
def securedTooLate : List Label :=
  [.input (.edit 0
      { uri := some { scheme := "http", host := "here", explicitPort := 443 } }),
    .input (.edit 1 { uri := some { scheme := "https", host := "here" } }),
    .input (.newClient 0), .input (.clientRequest 0 0),
    .input (.onConnect 0 none), .input (.onRead 0 [.done { code := 200 }]),
    .tick, .tick, .ret, .tick, .ret, .tick, .input (.clientRequest 0 1)]

/-- The client starts a request. -/
def startedOn? : Event → Option Nat
  | .started c _ => some c
  | _ => none

/-- The clients on which the choice starts a request. -/
def startsOn (config : Config) (label : Label) : List Nat :=
  match machine.step? config label with
  | some next =>
      (next.state.trace.drop config.state.trace.length).filterMap startedOn?
  | none => []

/-- The call stack while a choice is carried out: the part that is parsed is gone. -/
def underWay (config : Config) (label : Label) : List Frame :=
  match label, config.stack with
  | .tick, .onRead c buffer (_ :: rest) :: below => .onRead c buffer rest :: below
  | _, stack => stack

/-- The client whose `on_read` has not parsed its whole buffer. -/
def unread? : Frame → Option Nat
  | .onRead c _ (_ :: _) => some c
  | _ => none

/-- No request is started on a client whose `on_read` has not parsed its whole buffer. -/
def ReadsOut (config : Config) (label : Label) : Prop :=
  ∀ c ∈ startsOn config label, c ∉ (underWay config label).filterMap unread?

instance (config : Config) (label : Label) : Decidable (ReadsOut config label) :=
  inferInstanceAs (Decidable (∀ c ∈ startsOn config label, _))

/--
What is parsed for a request was delivered by the connection that the request was
written on, and after it was written; no request has been started since.
-/
def FromOwnConnection (earlier : List Event) : Event → Prop
  | .parsed c buffer r =>
      ∃ n before after,
        earlier = before ++ .delivered c n buffer :: after ∧
          LastHead before c n r ∧ ∀ s, .started c s ∉ after
  | _ => True

/-- Each response is read from what its own exchange has received. -/
structure OwnExchange (config : Config) : Prop where
  once : (config.state.trace.filterMap delivered?).Nodup
  own : History.Each FromOwnConnection config.state.trace
  /-- What nobody waits for costs the client its connection. -/
  unexpected :
    ∀ c buffer result rest below,
      config.fault = none →
      config.stack = .onRead c buffer (result :: rest) :: below →
      (config.state.clients c).parsing = none →
      ∃ next,
        machine.step? config .tick = some next ∧
          next.stack = below ∧ (next.state.clients c).tcp.connection = none

/-- A buffer that is being read was delivered for the context request of the parser. -/
def FeedsOwn (w : World) (c buffer : Nat) : Prop :=
  ∃ n before after,
    w.trace = before ++ .delivered c n buffer :: after ∧
      (∀ s, .started c s ∉ after) ∧
        ∀ r, (w.clients c).parsing = some r → LastHead before c n r

section ReadsOwn

variable {w next : World} {stack : List Frame}

/-- What links add to the history. -/
structure Adds (w next : World) (events : List Event) : Prop where
  trace : next.trace = w.trace ++ events
  unparsed : ∀ event ∈ events, ∀ c buffer r, event ≠ .parsed c buffer r
  /-- A client on which no request is started has no new context request. -/
  parsing :
    ∀ c,
      (∀ s, .started c s ∉ events) →
      ∀ r,
        (next.clients c).parsing = some r →
        (w.clients c).parsing = some r

theorem Adds.trans
    {third : World}
    {first second : List Event}
    (one : Adds w next first)
    (two : Adds next third second) :
    Adds w third (first ++ second) where
  trace := by rw [two.trace, one.trace, List.append_assoc]
  unparsed event member :=
    (List.mem_append.mp member).elim (one.unparsed event) (two.unparsed event)
  parsing c none r parsing := by
    refine one.parsing c (fun s member => ?_) r
      (two.parsing c (fun s member => ?_) r parsing)
    · exact none s (List.mem_append_left _ member)
    · exact none s (List.mem_append_right _ member)

theorem Links.adds (links : Links w next) : ∃ events, Adds w next events := by
  induction links with
  | refl =>
      exact ⟨[], by simp, by simp, fun _ _ _ parsing => parsing⟩
  | tail _ link inductionHypothesis =>
      obtain ⟨first, one⟩ := inductionHypothesis
      rcases link with abstains | ⟨c, r, started⟩
      · obtain ⟨second, trace, spare⟩ := abstains.trace
        refine ⟨first ++ second, one.trans
          ⟨trace, ?_, fun c _ r parsing => abstains.parsing c r parsing⟩⟩
        rintro event member c buffer r rfl
        cases spare _ member
      · obtain ⟨opening, pieces, trace, plain⟩ := started.history
        refine ⟨first ++ _, one.trans
          ⟨by rw [trace, List.append_assoc], ?_, fun d none s parsing => ?_⟩⟩
        · rintro event member d buffer s rfl
          simp only [List.mem_append, List.mem_cons, reduceCtorEq, false_or,
            wroteOn, List.mem_map, and_false, exists_false] at member
          rcases member with opened | piece
          · exact (plain _ (List.mem_append_left _ opened)).2.2.1 d buffer s rfl
          · exact (plain _ (List.mem_append_right _ piece)).2.2.1 d buffer s rfl
        · have other : d ≠ c := by
            rintro rfl
            exact none r (by simp)
          rwa [started.clients d other] at parsing

theorem FeedsOwn.adds
    {events : List Event}
    {c buffer : Nat}
    (feeds : FeedsOwn w c buffer)
    (adds : Adds w next events)
    (none : ∀ s, .started c s ∉ events) :
    FeedsOwn next c buffer := by
  obtain ⟨n, before, after, shape, still, own⟩ := feeds
  refine ⟨n, before, after ++ events, by simp [adds.trace, shape],
    fun s member => ?_, fun r parsing => own r (adds.parsing c none r parsing)⟩
  exact (List.mem_append.mp member).elim (still s) (none s)

theorem FeedsOwn.parseShift
    {c d buffer other context : Nat}
    (feeds : FeedsOwn w d other)
    (isContext : (w.clients c).parsing = some context)
    (result : Parsed) :
    FeedsOwn (w.parseShift c buffer context result) d other := by
  obtain ⟨n, before, after, shape, still, own⟩ := feeds
  refine ⟨n, before, after ++ [.parsed c buffer context], ?_, by simpa using still,
    fun r parsing => own r (parsing_parseShift isContext parsing)⟩
  simp [World.parseShift, emit, World.setClient, shape]

/-- What has been parsed is from the own exchange, and so is what is still unread. -/
structure ReadsOwn (w : World) (stack : List Frame) : Prop
    extends Reads w stack where
  unread :
    ∀ c buffer result rest,
      .onRead c buffer (result :: rest) ∈ stack → FeedsOwn w c buffer
  own : History.Each FromOwnConnection w.trace

theorem each_ownUnparsed
    {history events : List Event}
    (own : History.Each FromOwnConnection history)
    (unparsed : ∀ event ∈ events, ∀ c buffer r, event ≠ .parsed c buffer r) :
    History.Each FromOwnConnection (history ++ events) := by
  refine own.extend fun event member earlier => ?_
  cases event with
  | parsed c buffer r =>
      exact (unparsed _ member c buffer r rfl).elim
  | _ =>
      trivial

/-- A choice starts no request on a client that is still reading. -/
theorem ReadsOut.unstarted
    {config : Config}
    {label : Label}
    {after : Config}
    {events : List Event}
    (readsOut : ReadsOut config label)
    (stepped : machine.step? config label = some after)
    (trace : after.state.trace = config.state.trace ++ events)
    {c buffer : Nat}
    {result : Parsed}
    {rest : List Parsed}
    (member : .onRead c buffer (result :: rest) ∈ underWay config label)
    (s : Nat) :
    .started c s ∉ events := by
  intro started
  refine readsOut c ?_ (List.mem_filterMap.mpr ⟨_, member, rfl⟩)
  simp only [startsOn, stepped, trace, List.drop_left]
  exact List.mem_filterMap.mpr ⟨_, started, rfl⟩

/-- What the code starts with stays its own, and what it links with is not parsed. -/
theorem ReadsOwn.of_links
    {base : World}
    {config : Config}
    (after : Config)
    {label : Label}
    (own : History.Each FromOwnConnection base.trace)
    (reads : Reads after.state after.stack)
    (added : List Event)
    (begins : base.trace = config.state.trace ++ added)
    (links : Links base after.state)
    (readsOut : ReadsOut config label)
    (stepped : machine.step? config label = some after)
    (still :
      ∀ c buffer result rest,
        .onRead c buffer (result :: rest) ∈ after.stack →
        .onRead c buffer (result :: rest) ∈ underWay config label ∧
          FeedsOwn base c buffer) :
    ReadsOwn after.state after.stack := by
  obtain ⟨events, adds⟩ := links.adds
  refine ⟨reads, fun c buffer result rest member => ?_, ?_⟩
  · obtain ⟨isUnderWay, feeds⟩ := still c buffer result rest member
    refine feeds.adds adds fun s started => ?_
    have trace : after.state.trace = config.state.trace ++ (added ++ events) := by
      rw [adds.trace, begins, List.append_assoc]
    refine readsOut.unstarted stepped trace isUnderWay s ?_
    exact List.mem_append_right _ started
  · rw [adds.trace]
    exact each_ownUnparsed own adds.unparsed

theorem mem_underWay
    {frame other : Frame}
    {rest : List Frame}
    (member : other ∈ rest) :
    other ∈ underWay ⟨w, frame :: rest, none⟩ .tick := by
  unfold underWay
  split
  · rename_i shape
    simp only [List.cons.injEq] at shape
    exact List.mem_cons_of_mem _ (shape.2 ▸ member)
  · exact List.mem_cons_of_mem _ member

/-- What is unread after a frame has run was unread before, and is not parsed now. -/
theorem unread_of_tick
    {frame : Frame}
    {rest frames : List Frame}
    (executed : code frame w = .next next frames)
    {c buffer : Nat}
    {result : Parsed}
    {tail : List Parsed}
    (member : .onRead c buffer (result :: tail) ∈ frames ++ rest) :
    .onRead c buffer (result :: tail) ∈ underWay ⟨w, frame :: rest, none⟩ .tick ∧
      ∃ first others,
        .onRead c buffer (first :: others) ∈ frame :: rest := by
  rcases List.mem_append.mp member with pushed | below
  · obtain ⟨first, rfl⟩ := code_pushes executed pushed
    exact ⟨List.mem_cons_self, first, result :: tail, List.mem_cons_self⟩
  · exact ⟨mem_underWay below, result, tail, List.mem_cons_of_mem _ below⟩

/-- A frame that runs keeps apart what belongs to different exchanges. -/
theorem ReadsOwn.tick
    {frame : Frame}
    {rest : List Frame}
    (own : ReadsOwn w (frame :: rest))
    (after : Config)
    (reads : Reads after.state after.stack)
    (readsOut : ReadsOut ⟨w, frame :: rest, none⟩ .tick)
    (stepped : machine.step? ⟨w, frame :: rest, none⟩ .tick = some after)
    (executed : (code frame w).Holds (fun next => after.state = next) fun _ => False)
    (still :
      ∀ c buffer result tail,
        .onRead c buffer (result :: tail) ∈ after.stack →
        .onRead c buffer (result :: tail) ∈
            underWay ⟨w, frame :: rest, none⟩ .tick ∧
          ∃ first others, .onRead c buffer (first :: others) ∈ frame :: rest) :
    ReadsOwn after.state after.stack := by
  have links_of :
      ∀ base, LinksTo base (code frame w) → Links base after.state := by
    intro base links
    cases outcome : code frame w with
    | next next frames | raise next =>
        rw [outcome] at links executed
        have isNext : after.state = next := executed
        rw [isNext]
        exact links
    | fault reason =>
        rw [outcome] at executed
        exact executed.elim
  have untouched :
      LinksTo w (code frame w) → ReadsOwn after.state after.stack := by
    intro links
    refine .of_links after own.own reads [] (by simp) (links_of w links)
      readsOut stepped fun c buffer result tail member => ?_
    obtain ⟨isUnderWay, first, others, was⟩ := still c buffer result tail member
    exact ⟨isUnderWay, own.unread c buffer first others was⟩
  by_cases reading :
      ∃ c buffer result buf, frame = .onRead c buffer (result :: buf)
  · obtain ⟨c, buffer, result, buf, rfl⟩ := reading
    rcases onReadLoop_links w c buffer (result :: buf) with
      links | ⟨context, parsed, parsing, links⟩
    · exact untouched links
    · have feeds := own.unread c buffer result buf List.mem_cons_self
      have begins :
          (w.parseShift c buffer context parsed).trace =
            w.trace ++ [.parsed c buffer context] := by
        simp [World.parseShift, emit, World.setClient]
      refine .of_links after ?_ reads [.parsed c buffer context] begins
        (links_of _ links) readsOut stepped fun d other part tail member => ?_
      · refine History.each_snoc.mpr ⟨own.own, ?_⟩
        obtain ⟨n, before, after, shape, still, isOwn⟩ := feeds
        exact ⟨n, before, after, shape, isOwn context parsing, still⟩
      · obtain ⟨isUnderWay, first, others, was⟩ := still d other part tail member
        exact ⟨isUnderWay, (own.unread d other first others was).parseShift
          parsing parsed⟩
  · refine untouched ?_
    by_cases empty : ∃ c buffer, frame = .onRead c buffer []
    · obtain ⟨c, buffer, rfl⟩ := empty
      exact Links.refl w
    · refine code_links w fun c buffer buf isReading => ?_
      cases buf with
      | nil => exact empty ⟨c, buffer, isReading⟩
      | cons result rest => exact reading ⟨c, buffer, result, rest, isReading⟩

theorem ReadsOwn.restack
    {other : List Frame}
    (own : ReadsOwn w stack)
    (reads : Reads w other)
    (same :
      ∀ c buffer result rest,
        .onRead c buffer (result :: rest) ∈ other →
        .onRead c buffer (result :: rest) ∈ stack) :
    ReadsOwn w other :=
  ⟨reads, fun c buffer result rest member =>
    own.unread c buffer result rest (same c buffer result rest member), own.own⟩

/-- A buffer that begins to be read was received after the last head. -/
theorem ReadsOwn.delivers
    {c n : Nat}
    {buf : List Parsed}
    (own : ReadsOwn w stack)
    (reads : Reads (w.readFrom c n) (.onRead c w.nextBuffer buf :: stack))
    (connection : (w.clients c).tcp.connection = some n) :
    ReadsOwn (w.readFrom c n) (.onRead c w.nextBuffer buf :: stack) := by
  have adds : Adds w (w.readFrom c n) [.delivered c n w.nextBuffer] :=
    ⟨rfl, by simp, fun _ _ _ parsing => parsing⟩
  refine ⟨reads, fun d other result rest member => ?_,
    each_ownUnparsed own.own adds.unparsed⟩
  rcases List.mem_cons.mp member with isNew | below
  · cases isNew
    exact ⟨n, w.trace, [], rfl, by simp, fun r parsing =>
      own.paired.current c n r connection parsing⟩
  · exact (own.unread d other result rest below).adds adds (by simp)

theorem preserves_readsOwn : machine.Preserves ReadsOut ReadsOwn where
  tick frame rest w next frames isCode readsOut own executed := by
    have reads : Reads next (frames ++ rest) :=
      preserves_reads.tick frame rest w next frames isCode trivial own.toReads
        executed
    have executedCode : code frame w = .next next frames := executed
    have stepped :
        machine.step? ⟨w, frame :: rest, none⟩ .tick =
          some ⟨next, frames ++ rest, none⟩ := by
      simp [CallMachine.Machine.step?, isCode, executed, CallMachine.Machine.resume]
    refine own.tick ⟨next, frames ++ rest, none⟩ reads readsOut stepped
      (by rw [executedCode]; rfl) ?_
    intro c buffer result tail member
    exact unread_of_tick executedCode member
  tickRaise frame rest w next isCode readsOut own executed := by
    have reads : Reads next (machine.unwind rest) :=
      preserves_reads.tickRaise frame rest w next isCode trivial own.toReads
        executed
    have executedCode : code frame w = .raise next := executed
    have stepped :
        machine.step? ⟨w, frame :: rest, none⟩ .tick =
          some ⟨next, machine.unwind rest, none⟩ := by
      simp [CallMachine.Machine.step?, isCode, executed, CallMachine.Machine.resume]
    refine own.tick ⟨next, machine.unwind rest, none⟩ reads readsOut
      stepped (by rw [executedCode]; rfl) ?_
    intro c buffer result tail member
    have below := onRead_of_mem_unwind member
    exact ⟨mem_underWay below, result, tail, List.mem_cons_of_mem _ below⟩
  ret frame rest w isCallback own :=
    own.restack (preserves_reads.ret frame rest w isCallback own.toReads)
      fun _ _ _ _ member => List.mem_cons_of_mem _ member
  throw frame rest w isCallback throws readsOut own :=
    own.restack
      (preserves_reads.throw frame rest w isCallback throws trivial own.toReads)
      fun _ _ _ _ member => List.mem_cons_of_mem _ (onRead_of_mem_unwind member)
  input input stack w next frames boundary readsOut own accepted := by
    have reads : Reads next (frames ++ stack) :=
      preserves_reads.input input stack w next frames boundary trivial own.toReads
        accepted
    have stepped :
        machine.step? ⟨w, stack, none⟩ (.input input) =
          some ⟨next, frames ++ stack, none⟩ := by
      simp [CallMachine.Machine.step?, boundary, accepted,
        CallMachine.Machine.resume]
    change accept input stack.head? w = some (.next next frames) at accepted
    by_cases reading : ∃ c buf, input = .onRead c buf
    · obtain ⟨c, buf, rfl⟩ := reading
      obtain ⟨n, connection, delivers⟩ := accept_onRead accepted
      cases delivers
      exact own.delivers reads connection
    · push Not at reading
      have links : Links w next := accept_links reading accepted
      refine ReadsOwn.of_links ⟨next, frames ++ stack, none⟩ own.own
        reads [] (by simp) links readsOut stepped
        fun c buffer result rest member => ?_
      have below : .onRead c buffer (result :: rest) ∈ stack :=
        (List.mem_append.mp member).resolve_left (accept_pushes reading accepted)
      exact ⟨below, own.unread c buffer result rest below⟩
  inputRaise input stack w next boundary readsOut own accepted := by
    have reads : Reads next stack :=
      preserves_reads.inputRaise input stack w next boundary trivial own.toReads
        accepted
    have stepped :
        machine.step? ⟨w, stack, none⟩ (.input input) =
          some ⟨next, stack, none⟩ := by
      simp [CallMachine.Machine.step?, boundary, accepted,
        CallMachine.Machine.resume]
    change accept input stack.head? w = some (.raise next) at accepted
    by_cases reading : ∃ c buf, input = .onRead c buf
    · obtain ⟨c, buf, rfl⟩ := reading
      obtain ⟨n, _, delivers⟩ := accept_onRead accepted
      cases delivers
    · push Not at reading
      have links : Links w next := accept_links reading accepted
      exact ReadsOwn.of_links ⟨next, stack, none⟩ own.own
        reads [] (by simp) links readsOut stepped
        fun c buffer result rest member =>
          ⟨member, own.unread c buffer result rest member⟩

end ReadsOwn

/-- A buffer holds more than the response that is waited for. -/
def leftOver : List Label :=
  [.input (.edit 0 { uri := some { scheme := "http", host := "here" } }),
    .input (.newClient 0), .input (.clientRequest 0 0),
    .input (.onConnect 0 none),
    .input (.onRead 0 [.done { code := 200 }, .done { code := 404 }]),
    .tick, .tick, .ret, .tick, .ret]

/-- The response callback starts the next request, and the rest of the buffer is left. -/
def readAhead : List Label :=
  [.input (.edit 0 { uri := some { scheme := "http", host := "here" } }),
    .input (.edit 1 { uri := some { scheme := "http", host := "here" } }),
    .input (.newClient 0), .input (.clientRequest 0 0),
    .input (.onConnect 0 none),
    .input (.onRead 0 [.done { code := 200 }, .done { code := 404 }]),
    .tick, .tick, .ret, .tick, .input (.clientRequest 0 1), .ret, .tick]

/-- The observations that tell when the second request was written. -/
def readAheadMark? : Event → Option Nat
  | .delivered _ _ _ => some 0
  | .wrote _ _ (.head r _) => some (r + 1)
  | _ => none

end UniEventHttp.ClientSide.World
