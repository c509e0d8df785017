import UniEventHttp.ClientLists

namespace UniEventHttp.ClientSide.World

/-!
# Exceptions of `request`

`Client::request` links the request, drops the old connection and clears its
filters before it finds out that it has no context for TLS or does not support
the proxy; `Pool::request` finds a client for the request before this client
refuses it.
-/

/-! ## `Client::request` -/

/-- The request cannot go on the connection of the client. -/
def Reconnects (w : World) (c r : Nat) : Prop :=
  (w.clients c).tcp.status ≠ .connected ∨
    (w.clients c).netloc ≠ w.location r ∨
    (w.requests r).keepAlive = false

/-- No connection can be set up for the request, which has its scheme by then. -/
def RefusesRequest (w : World) (r : Nat) : Prop :=
  w.RefusesSetup (w.requests r).toRequestFields.withScheme

/-- The client and the request may be brought together. -/
structure Joins (w : World) (c r : Nat) : Prop where
  idle : (w.clients c).request = none
  unlinked : (w.requests r).client = none
  checked : (w.requests r).check = none

/-- The connection, its filters and the links of client and request are kept. -/
structure Unharmed (w : World) (c r : Nat) (next : World) : Prop where
  tcp : (next.clients c).tcp = (w.clients c).tcp
  netloc : (next.clients c).netloc = (w.clients c).netloc
  request : (next.clients c).request = (w.clients c).request
  link : (next.requests r).client = (w.requests r).client

/-- An exception of `Client::request` leaves client and request as they were. -/
def AtomicRequest (w : World) (c r : Nat) : Prop :=
  ∀ next, w.clientRequest c r = .raise next → w.Unharmed c r next

/-- `Client::request` refuses early, or when it sets up a connection, or not. -/
theorem clientRequest_cases (w : World) (c r : Nat) :
    ¬ w.Joins c r ∧
        (∃ exception,
          w.clientRequest c r = .raise (w.emit (.threw exception))) ∨
      w.Joins c r ∧ (w.Reconnects c r ∧ w.RefusesRequest r) ∧
        (∃ next,
          w.clientRequest c r = .raise next ∧
            (next.requests r).client = some c) ∨
      w.Joins c r ∧ ¬ (w.Reconnects c r ∧ w.RefusesRequest r) ∧
        ∀ next, w.clientRequest c r ≠ .raise next := by
  unfold clientRequest
  split
  · rename_i busy
    refine Or.inl ⟨?_, _, rfl⟩
    intro joins
    rw [joins.idle] at busy
    cases busy
  · rename_i notBusy
    have idle : (w.clients c).request = none := by simpa using notBusy
    split
    · rename_i linked
      refine Or.inl ⟨?_, _, rfl⟩
      intro joins
      rw [joins.unlinked] at linked
      cases linked
    · rename_i notLinked
      have unlinked : (w.requests r).client = none := by simpa using notLinked
      split
      · rename_i message fails
        refine Or.inl ⟨?_, _, rfl⟩
        intro joins
        rw [joins.checked] at fails
        cases fails
      · rename_i checked
        right
        have joins : w.Joins c r := ⟨idle, unlinked, checked⟩
        dsimp only
        generalize shape :
          w.setRequest r
            { w.requests r with
              client := some c
              uri := (w.requests r).uri.map Uri.withScheme } = taken
        have config : taken.config = w.config := by
          subst shape
          rfl
        have clients : taken.clients = w.clients := by
          subst shape
          rfl
        have request :
            taken.requests r =
              { w.requests r with
                client := some c
                uri := (w.requests r).uri.map Uri.withScheme } := by
          subst shape
          simp [setRequest]
        have reconnects :
            taken.needsConnection c r = true ↔ w.Reconnects c r := by
          have netloc : taken.netloc r = w.location r := by
            unfold World.netloc World.location
            rw [config, request]
            rfl
          unfold needsConnection Reconnects
          rw [netloc, clients, request]
          simp [or_assoc]
        have refuses :
            taken.RefusesSetup (taken.requests r).toRequestFields ↔
              w.RefusesRequest r := by
          rw [request]
          subst shape
          exact Iff.rfl
        have starts :
            ∀ next after : World, next.startRequest c r ≠ .raise after := by
          intro next after raised
          have post := startRequest_post next c r
          rw [raised] at post
          exact post
        split
        · rename_i needs
          have post := openConnection_post taken c r
          cases opened : taken.openConnection c r with
          | ok next =>
              rw [opened] at post
              refine Or.inr
                ⟨joins, fun both => post.1 (refuses.mpr both.2), ?_⟩
              exact starts next
          | raise next =>
              rw [opened] at post
              obtain ⟨isRefused, tcp, exception, _, rfl⟩ := post
              refine Or.inl ⟨joins,
                ⟨reconnects.mp needs, refuses.mp isRefused⟩, _, rfl, ?_⟩
              change (taken.requests r).client = some c
              rw [request]
          | fault reason =>
              rw [opened] at post
              exact post.elim
        · rename_i reuses
          exact Or.inr ⟨joins, fun both => reuses (reconnects.mpr both.1),
            starts taken⟩

/--
An exception of `Client::request` leaves client and request as they were, unless
the request was about to be connected and no connection can be set up for it.
-/
theorem atomicRequest_iff (w : World) (c r : Nat) :
    w.AtomicRequest c r ↔
      ¬ (w.Joins c r ∧ w.Reconnects c r ∧ w.RefusesRequest r) := by
  rcases clientRequest_cases w c r with
    ⟨apart, exception, raised⟩ | ⟨joins, refused, next, raised, linked⟩ |
    ⟨_, supports, never⟩
  · refine ⟨fun _ both => apart both.1, ?_⟩
    rintro _ next isNext
    rw [raised] at isNext
    cases isNext
    exact ⟨rfl, rfl, rfl, rfl⟩
  · refine ⟨fun atomic => ?_, fun not => (not ⟨joins, refused⟩).elim⟩
    have link := (atomic next raised).link
    rw [linked, joins.unlinked] at link
    cases link
  · exact ⟨fun _ both => supports both.2, fun _ next isNext =>
      (never next isNext).elim⟩

/-- A client with a connection is given a request with a proxy of another kind. -/
def answeredThenProxied : List Label :=
  [.input (.edit 0 { uri := some { scheme := "http", host := "here" } }),
    .input (.edit 1
      { uri := some { scheme := "http", host := "here" }, proxy := some 0 }),
    .input (.newClient 0),
    .input (.clientRequest 0 0),
    .input (.onConnect 0 none),
    .input (.onRead 0 [.done { code := 200 }]),
    .tick, .tick, .ret, .tick, .ret, .tick]

/-- A client without a connection, and a request that is to be verified. -/
def unverified : List Label :=
  [.input (.edit 0 { uri := some { scheme := "https", host := "here" } }),
    .input (.newClient 0)]

/--
The connection is lost and the request counts as in progress for ever: it does so
for an unsupported proxy and for a TLS context that cannot be made.
-/
theorem refusedSetup_not_atomicRequest :
    (∃ config,
        run? (initial { proxyUri := fun _ => { scheme := "socks4" } })
            answeredThenProxied = some config ∧
          config.stack = [] ∧
          (config.state.clients 0).tcp.status = .connected ∧
          ¬ config.state.AtomicRequest 0 1) ∧
      ∃ config,
        run? (initial { setsVerifyPaths := false }) unverified =
            some config ∧
          config.stack = [] ∧
          ¬ config.state.AtomicRequest 0 0 := by
  constructor
  · refine ⟨_, rfl, rfl, rfl, fun atomic => ?_⟩
    have link := (atomic _ rfl).link
    cases link
  · refine ⟨_, rfl, rfl, fun atomic => ?_⟩
    have link := (atomic _ rfl).link
    cases link

/-! ## `Pool::request` -/

/-- Whether an exception leaves a piece of code. -/
def Throwing (straight : Straight) : Prop :=
  ∃ next, straight = .raise next

/-- The request is active or it waits in a queue. -/
def Engaged (w : World) (r : Nat) : Prop :=
  (w.requests r).client.isSome ∨ w.Waiting r

/--
An exception of `Pool::request` leaves all lists of all pools as they were, and a
request that is active or waits is refused in this way.
-/
structure AtomicPoolRequest (w : World) (p r : Nat) : Prop where
  unchanged :
    ∀ next,
      w.poolRequest p r = .raise next →
      ∀ q key, (next.pools q).clients key = (w.pools q).clients key
  rejected : w.Engaged r → Throwing (w.poolRequest p r)

/-- The branches of `Pool::request`. -/
inductive Route where
  | queue
  | newClient
  | freeClient (client : Nat)
  deriving DecidableEq

/-- The branch that `Pool::request` takes for a location. -/
def route (w : World) (p : Nat) (key : NetLoc) : Route :=
  match (w.pools p).clients key with
  | none => .newClient
  | some entry =>
      match w.firstFree entry with
      | some c => .freeClient c
      | none =>
          if entry.busy.length < (w.pools p).maxConnections then
            .newClient
          else
            .queue

/-- The client of this branch, if there is one, accepts the request. -/
def Supports (w : World) (r : Nat) : Route → Prop
  | .queue => True
  | .newClient => ¬ w.RefusesRequest r
  | .freeClient c =>
      (w.clients c).request = none ∧ ¬ (w.Reconnects c r ∧ w.RefusesRequest r)

/--
The request fails its check, or it is not in progress anywhere and the client
that the pool finds for it accepts it.
-/
def Admits (w : World) (p r : Nat) : Prop :=
  (w.requests r).check ≠ none ∨
    ¬ w.Engaged r ∧ w.Supports r (w.route p (w.netloc r))

theorem clientRequest_throws (w : World) (c r : Nat) :
    Throwing (w.clientRequest c r) ↔
      ¬ (w.Joins c r ∧ ¬ (w.Reconnects c r ∧ w.RefusesRequest r)) := by
  rcases clientRequest_cases w c r with
    ⟨apart, exception, raised⟩ | ⟨_, refused, next, raised, _⟩ |
    ⟨joins, supports, never⟩
  · exact ⟨fun _ both => apart both.1, fun _ => ⟨_, raised⟩⟩
  · exact ⟨fun _ both => both.2 refused, fun _ => ⟨_, raised⟩⟩
  · exact ⟨fun ⟨next, isNext⟩ => (never next isNext).elim,
      fun not => (not ⟨joins, supports⟩).elim⟩

/-- Finding a client for a request changes the lists. -/
theorem Places.changes
    {w placed : World}
    {p c : Nat}
    {key : NetLoc}
    (named : Everywhere Named w)
    (places : Places w p key c placed) :
    (placed.pools p).clients key ≠ (w.pools p).clients key := by
  cases places with
  | creates found =>
      rename_i entry
      rw [setEntry_clients, if_pos ⟨rfl, rfl⟩]
      rcases found with ⟨absent, rfl⟩ | ⟨present, _, _⟩
      · simp [absent]
      · rw [present]
        intro same
        have isBusy : w.nextClient ∈ entry.busy := by
          have busy := congrArg NetLocList.busy (Option.some.inj same)
          rw [← busy]
          exact List.mem_insert_self
        have isNamed := named p key entry present _ (Or.inr isBusy)
        omega
  | reuses present isFree =>
      rename_i entry
      rw [setEntry_clients, if_pos ⟨rfl, rfl⟩, present]
      intro same
      have free : entry.free.erase c = entry.free :=
        congrArg NetLocList.free (Option.some.inj same)
      have shorter := List.length_erase_of_mem isFree
      have positive := List.length_pos_of_mem isFree
      rw [free] at shorter
      omega

/-- `Pool::request` for a request that passes its check, by its branches. -/
theorem poolRequest_route
    {w : World}
    {p r : Nat}
    (checked : (w.requests r).check = none) :
    w.route p (w.netloc r) = .queue ∧
        (∃ next, w.poolRequest p r = .ok next) ∨
      ∃ c pooled placed,
        pooled = w.setRequest r { w.requests r with pool := some p } ∧
          Places pooled p (w.netloc r) c placed ∧
          w.poolRequest p r = placed.clientRequest c r ∧
          (w.route p (w.netloc r) = .newClient ∧
              placed.clients c = { loop := (w.pools p).loop, pool := some p } ∨
            w.route p (w.netloc r) = .freeClient c ∧
              placed.clients = w.clients) := by
  have located :
      (w.setRequest r { w.requests r with pool := some p }).netloc r =
        w.netloc r := by
    simp [World.netloc, setRequest]
  generalize taken :
    w.setRequest r { w.requests r with pool := some p } = pooled at located
  have samePools : pooled.pools = w.pools := by
    subst taken
    rfl
  have sameClients : pooled.clients = w.clients := by
    subst taken
    rfl
  have sameConfig : pooled.config = w.config := by
    subst taken
    rfl
  unfold poolRequest route firstFree
  simp only [checked, taken, located, samePools, sameConfig]
  cases present : (w.pools p).clients (w.netloc r) with
  | none =>
      refine Or.inr ⟨_, pooled, _, rfl, .creates (Or.inl ⟨?_, rfl⟩), rfl,
        Or.inl ⟨rfl, ?_⟩⟩
      · rw [samePools]
        exact present
      · simp [setEntry, newClient, setClient, samePools]
  | some entry =>
      dsimp only
      cases first : entry.free.argmin w.config.address with
      | some c =>
          have found : (pooled.pools p).clients (w.netloc r) = some entry := by
            rw [samePools]
            exact present
          refine Or.inr ⟨c, pooled, _, rfl, .reuses found ?_, rfl,
            Or.inr ⟨rfl, ?_⟩⟩
          · exact List.argmin_mem first
          · simp [setEntry, sameClients]
      | none =>
          dsimp only
          split
          · rename_i below
            refine Or.inr ⟨_, pooled, _, rfl,
              .creates (Or.inr ⟨?_, List.argmin_eq_none.mp first, ?_⟩), rfl,
              Or.inl ⟨rfl, ?_⟩⟩
            · rw [samePools]
              exact present
            · rw [samePools]
              exact below
            · simp [setEntry, newClient, setClient, samePools]
          · exact Or.inl ⟨rfl, _, rfl⟩

/-- The client that the pool has found accepts a request that is not engaged. -/
theorem supports_iff
    {w placed : World}
    {p c r : Nat}
    (requests :
      placed.requests =
        (w.setRequest r { w.requests r with pool := some p }).requests)
    (config : placed.config = w.config)
    (verifyContext : placed.verifyContext = w.verifyContext)
    (found :
      w.route p (w.netloc r) = .newClient ∧
          placed.clients c = { loop := (w.pools p).loop, pool := some p } ∨
        w.route p (w.netloc r) = .freeClient c ∧ placed.clients = w.clients)
    (free : ¬ w.Engaged r)
    (checked : (w.requests r).check = none) :
    ¬ Throwing (placed.clientRequest c r) ↔
      w.Supports r (w.route p (w.netloc r)) := by
  have self :
      placed.requests r = { w.requests r with pool := some p } := by
    rw [requests]
    simp [setRequest]
  have unlinked : (w.requests r).client = none := by
    by_contra linked
    exact free (Or.inl (Option.isSome_iff_ne_none.mpr linked))
  have joins :
      placed.Joins c r ↔ (placed.clients c).request = none := by
    refine ⟨fun both => both.idle, fun idle => ⟨idle, ?_, ?_⟩⟩
    · rw [self]
      exact unlinked
    · rw [self]
      exact checked
  have refuses : placed.RefusesRequest r ↔ w.RefusesRequest r := by
    unfold RefusesRequest
    rw [refusesSetup_congr config verifyContext, self]
  rw [clientRequest_throws, not_not, joins, refuses]
  rcases found with ⟨isNew, fresh⟩ | ⟨isFree, clients⟩
  · have reconnects : placed.Reconnects c r := by
      refine Or.inl ?_
      rw [fresh]
      simp
    rw [isNew, fresh]
    simp [Supports, reconnects]
  · have reconnects : placed.Reconnects c r ↔ w.Reconnects c r := by
      unfold Reconnects location
      rw [clients, self, config]
    rw [isFree, clients, reconnects]
    rfl

/--
In every state that a run may reach, an exception of `Pool::request` changes no
list and a request in progress is refused, if and only if the request fails its
check or is in progress nowhere and accepted by the client found for it.
-/
theorem atomicPoolRequest_iff
    (w : World)
    (labels : List Label)
    (config : Config)
    (p r : Nat)
    (fresh : Fresh w)
    (ran : run? w labels = some config) :
    config.state.AtomicPoolRequest p r ↔ config.state.Admits p r := by
  have named := named_of_run fresh ran
  generalize config.state = now at named ⊢
  by_cases checked : (now.requests r).check = none
  swap
  · refine ⟨fun _ => Or.inl checked, fun _ => ⟨?_, fun _ => ?_⟩⟩
    · intro next raised q key
      unfold poolRequest at raised
      split at raised
      · cases raised
        rfl
      · rename_i passes
        exact (checked passes).elim
    · unfold poolRequest Throwing
      split
      · exact ⟨_, rfl⟩
      · rename_i passes
        exact (checked passes).elim
  rcases poolRequest_route checked with
    ⟨isQueue, next, queued⟩ | ⟨c, pooled, placed, taken, places, same, found⟩
  · have neverThrows : ¬ Throwing (now.poolRequest p r) := by
      rintro ⟨after, raised⟩
      rw [queued] at raised
      cases raised
    constructor
    · intro atomic
      refine Or.inr ⟨fun engaged => neverThrows (atomic.rejected engaged), ?_⟩
      rw [isQueue]
      trivial
    · intro admits
      refine ⟨fun after raised => (neverThrows ⟨after, raised⟩).elim, ?_⟩
      intro engaged
      exact ((admits.resolve_left fun fails => fails checked).1 engaged).elim
  · have requests := places.same.2.1.trans (congrArg World.requests taken)
    have sameConfig := places.same.1.trans (congrArg World.config taken)
    have sameContext :=
      places.verifyContext.trans (congrArg World.verifyContext taken)
    have changes :
        (placed.pools p).clients (now.netloc r) ≠
          (now.pools p).clients (now.netloc r) := by
      have kept : Everywhere Named pooled := by
        rw [taken]
        exact named.setRequest r _
      have samePools : pooled.pools = now.pools := by
        rw [taken]
        rfl
      rw [← samePools]
      exact places.changes kept
    have quiet :
        now.AtomicPoolRequest p r →
        ¬ Throwing (placed.clientRequest c r) := by
      rintro atomic ⟨next, raised⟩
      have post := clientRequest_post placed c r
      rw [raised] at post
      have unchanged := atomic.unchanged next (same.trans raised) p
        (now.netloc r)
      rw [post.pools] at unchanged
      exact changes unchanged
    constructor
    · intro atomic
      have calm := quiet atomic
      have free : ¬ now.Engaged r := by
        intro engaged
        have throws := atomic.rejected engaged
        rw [same] at throws
        exact calm throws
      exact Or.inr
        ⟨free, (supports_iff requests sameConfig sameContext found free checked).mp calm⟩
    · intro admits
      obtain ⟨free, supports⟩ := admits.resolve_left fun fails => fails checked
      have calm :=
        (supports_iff requests sameConfig sameContext found free checked).mpr supports
      refine ⟨fun next raised => ?_, fun engaged => (free engaged).elim⟩
      rw [same] at raised
      exact (calm ⟨next, raised⟩).elim

/-- The second request waits for the first one, and the third has another proxy. -/
def waitsForFirst : List Label :=
  [.input (.maxConnections 0 1),
    .input (.edit 0 { uri := some { scheme := "http", host := "here" } }),
    .input (.edit 1 { uri := some { scheme := "http", host := "here" } }),
    .input (.edit 2
      { uri := some { scheme := "http", host := "there" }, proxy := some 0 }),
    .input (.poolRequest 0 0),
    .input (.poolRequest 0 1)]

/-- A request without a uri is refused and leaves the pool as it was. -/
theorem atomicPoolRequest_waitsForFirst :
    ∃ config,
      run? (initial {}) waitsForFirst = some config ∧
        config.state.AtomicPoolRequest 0 3 := by
  have ran : run? (initial {}) waitsForFirst = some _ := rfl
  refine ⟨_, ran, ?_⟩
  exact (atomicPoolRequest_iff _ _ _ 0 3 (fresh_initial {}) ran).mpr
    (Or.inl (by decide))

/--
A refused request leaves a client behind that is busy and has no request, and a
request that waits is accepted a second time.
-/
theorem waitsForFirst_not_atomicPoolRequest :
    ∃ config,
      run? (initial { proxyUri := fun _ => { scheme := "socks4" } })
          waitsForFirst = some config ∧
        ¬ config.state.AtomicPoolRequest 0 2 ∧
        ¬ config.state.AtomicPoolRequest 0 1 := by
  refine ⟨_, rfl, ?_, ?_⟩
  · intro atomic
    have unchanged := atomic.unchanged _ rfl 0
      { host := "there", port := 80, proxy := some 0 }
    cases unchanged
  · intro atomic
    obtain ⟨next, raised⟩ := atomic.rejected
      (Or.inr ⟨0, { host := "here", port := 80 }, _, rfl, by decide⟩)
    cases raised

end UniEventHttp.ClientSide.World
