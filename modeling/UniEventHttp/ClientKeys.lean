import Mathlib.Data.List.Nodup
import UniEventHttp.ClientState

namespace UniEventHttp.ClientSide.World

/-!
# Clients under the keys of their pool

A client with a request is busy in the list of exactly one network location of
its pool, the one that it was last connected to.  The key of a list is computed
before the client fills in the scheme of a uri, and a redirect is followed on the
same client when host and port stay the same; so the invariant asks that neither
changes the location of a request in flight.
-/

/-- The client is busy in the list of a location. -/
def Busy (w : World) (p : Nat) (key : NetLoc) (c : Nat) : Prop :=
  ∃ entry ∈ (w.pools p).clients key, c ∈ entry.busy

/-- The client is free in the list of a location. -/
def Free (w : World) (p : Nat) (key : NetLoc) (c : Nat) : Prop :=
  ∃ entry ∈ (w.pools p).clients key, c ∈ entry.free

/-- The request is in the queue of a location. -/
def Waits (w : World) (p : Nat) (key : NetLoc) (r : Nat) : Prop :=
  ∃ entry ∈ (w.pools p).clients key, r ∈ entry.queue.map Place.req

/-- The request is in a queue. -/
def Waiting (w : World) (r : Nat) : Prop :=
  ∃ p key, w.Waits p key r

/-- A client has the request. -/
def Active (w : World) (r : Nat) : Prop :=
  ∃ c, (w.clients c).request = some r

/-- The location that a client will connect to for the request. -/
def location (w : World) (r : Nat) : NetLoc :=
  w.config.netloc (w.requests r).toRequestFields.withScheme

/-! ## The property -/

/-- Every client of a pool that has a request is busy under its own location only. -/
def InPlace (w : World) : Prop :=
  ∀ c p,
    (w.clients c).pool = some p →
    (w.clients c).request.isSome →
    ∀ key, w.Busy p key c ↔ key = (w.clients c).netloc

/-- Clients are in place, and `putback` finds them there. -/
structure KeptInPlace (config : Config) : Prop where
  inPlace : config.state.InPlace
  entryFound : config.fault ≠ some .putbackNoEntry
  busyFound : config.fault ≠ some .putbackNotBusy

/-! ## The invariant -/

/-- The clients and the waiting requests of all pools are under their keys. -/
structure Keys (w : World) : Prop where
  member :
    ∀ p key c,
      w.Free p key c ∨ w.Busy p key c →
      (w.clients c).pool = some p ∧ c < w.nextClient
  home :
    ∀ p key other c,
      w.Free p key c ∨ w.Busy p key c →
      w.Free p other c ∨ w.Busy p other c →
      key = other
  freeOnce : ∀ p key, ∀ entry ∈ (w.pools p).clients key, entry.free.Nodup
  free : ∀ p key c, w.Free p key c → (w.clients c).request = none
  active :
    ∀ c r p,
      (w.clients c).request = some r →
      (w.clients c).pool = some p →
      w.Busy p (w.clients c).netloc c
  known : ∀ c r, (w.clients c).request = some r → c < w.nextClient
  linked :
    ∀ c r, (w.clients c).request = some r → (w.requests r).client = some c
  key : ∀ p key r, w.Waits p key r → w.location r = key
  apart : ∀ r, w.Active r → ¬ w.Waiting r
  queueOnce :
    ∀ p key, ∀ entry ∈ (w.pools p).clients key,
      (entry.queue.map Place.req).Nodup
  queueHome : ∀ p other key r, w.Waits p key r → w.Waits other key r → p = other

theorem Keys.inPlace {w : World} (keys : Keys w) : w.InPlace := by
  intro c p pool hasRequest key
  obtain ⟨r, active⟩ := Option.isSome_iff_exists.mp hasRequest
  have busy := keys.active c r p active pool
  constructor
  · intro other
    exact keys.home p key _ c (Or.inr other) (Or.inr busy)
  · rintro rfl
    exact busy

theorem location_idem (config : WorldConfig) (fields : RequestFields) :
    config.netloc fields.withScheme.withScheme =
      config.netloc fields.withScheme := by
  have same : fields.withScheme.withScheme = fields.withScheme := by
    unfold RequestFields.withScheme
    cases fields.uri with
    | none =>
        rfl
    | some uri =>
        simp only [Option.map_some, Uri.withScheme]
        split <;> simp_all
  rw [same]

/-- Changes that leave the pools alone; a client may lose its request. -/
structure Quiet (w next : World) : Prop where
  entries : ∀ p, (next.pools p).clients = (w.pools p).clients
  nextClient : next.nextClient = w.nextClient
  request :
    ∀ c,
      (next.clients c).request = (w.clients c).request ∨
        (next.clients c).request = none
  pool : ∀ c, (next.clients c).pool = (w.clients c).pool
  netloc : ∀ c, (next.clients c).netloc = (w.clients c).netloc
  linked :
    ∀ c r,
      (next.clients c).request = some r →
      (next.requests r).client = (w.requests r).client
  location : ∀ r, w.Waiting r → next.location r = w.location r

namespace Quiet

variable {w next third : World}

theorem busy (quiet : Quiet w next) (p : Nat) (key : NetLoc) (c : Nat) :
    next.Busy p key c ↔ w.Busy p key c := by
  simp [Busy, quiet.entries]

theorem free (quiet : Quiet w next) (p : Nat) (key : NetLoc) (c : Nat) :
    next.Free p key c ↔ w.Free p key c := by
  simp [Free, quiet.entries]

theorem waits (quiet : Quiet w next) (p : Nat) (key : NetLoc) (r : Nat) :
    next.Waits p key r ↔ w.Waits p key r := by
  simp [Waits, quiet.entries]

theorem waiting (quiet : Quiet w next) (r : Nat) :
    next.Waiting r ↔ w.Waiting r := by
  simp [Waiting, quiet.waits]

/-- A client that has a request had it before. -/
theorem had
    (quiet : Quiet w next)
    {c r : Nat}
    (active : (next.clients c).request = some r) :
    (w.clients c).request = some r := by
  rcases quiet.request c with same | lost
  · rwa [← same]
  · rw [lost] at active
    cases active

theorem refl (w : World) : Quiet w w :=
  ⟨fun _ => rfl, rfl, fun _ => Or.inl rfl, fun _ => rfl, fun _ => rfl,
    fun _ _ _ => rfl, fun _ _ => rfl⟩

theorem trans
    (one : Quiet w next)
    (two : Quiet next third) :
    Quiet w third where
  entries p := (two.entries p).trans (one.entries p)
  nextClient := two.nextClient.trans one.nextClient
  request c := by
    rcases two.request c with same | lost
    · rw [same]
      exact one.request c
    · exact Or.inr lost
  pool c := (two.pool c).trans (one.pool c)
  netloc c := (two.netloc c).trans (one.netloc c)
  linked c r active :=
    (two.linked c r active).trans (one.linked c r (two.had active))
  location r waiting :=
    (two.location r ((one.waiting r).mpr waiting)).trans
      (one.location r waiting)

end Quiet

theorem Keys.quiet
    {w next : World}
    (keys : Keys w)
    (quiet : Quiet w next) :
    Keys next where
  member p key c isMember := by
    rw [quiet.free, quiet.busy] at isMember
    rw [quiet.pool, quiet.nextClient]
    exact keys.member p key c isMember
  home p key other c := by
    simp only [quiet.free, quiet.busy]
    exact keys.home p key other c
  freeOnce p key := by
    rw [quiet.entries]
    exact keys.freeOnce p key
  free p key c isFree := by
    rw [quiet.free] at isFree
    rcases quiet.request c with same | lost
    · rw [same]
      exact keys.free p key c isFree
    · exact lost
  active c r p active pool := by
    rw [quiet.pool] at pool
    rw [quiet.busy, quiet.netloc]
    exact keys.active c r p (quiet.had active) pool
  known c r active := by
    rw [quiet.nextClient]
    exact keys.known c r (quiet.had active)
  linked c r active :=
    (quiet.linked c r active).trans (keys.linked c r (quiet.had active))
  key p key r waits := by
    rw [quiet.waits] at waits
    rw [quiet.location r ⟨p, key, waits⟩]
    exact keys.key p key r waits
  apart r := by
    rintro ⟨c, active⟩
    rw [quiet.waiting]
    exact keys.apart r ⟨c, quiet.had active⟩
  queueOnce p key := by
    rw [quiet.entries]
    exact keys.queueOnce p key
  queueHome p other key r := by
    simp only [quiet.waits]
    exact keys.queueHome p other key r

/-- Changes of the lists of the pools only. -/
structure Regroups (w next : World) : Prop where
  config : next.config = w.config
  clients : next.clients = w.clients
  requests : next.requests = w.requests
  nextClient : next.nextClient = w.nextClient
  member :
    ∀ p key c,
      next.Free p key c ∨ next.Busy p key c →
      w.Free p key c ∨ w.Busy p key c
  freeOnce : ∀ p key, ∀ entry ∈ (next.pools p).clients key, entry.free.Nodup
  free : ∀ p key c, next.Free p key c → (w.clients c).request = none
  busy :
    ∀ c p,
      (w.clients c).request.isSome →
      w.Busy p (w.clients c).netloc c →
      next.Busy p (w.clients c).netloc c
  waits : ∀ p key r, next.Waits p key r → w.Waits p key r
  queueOnce :
    ∀ p key, ∀ entry ∈ (next.pools p).clients key,
      (entry.queue.map Place.req).Nodup

theorem Keys.regroups
    {w next : World}
    (keys : Keys w)
    (regroups : Regroups w next) :
    Keys next where
  member p key c isMember := by
    rw [regroups.clients, regroups.nextClient]
    exact keys.member p key c (regroups.member p key c isMember)
  home p key other c here there :=
    keys.home p key other c (regroups.member p key c here)
      (regroups.member p other c there)
  freeOnce := regroups.freeOnce
  free p key c isFree := by
    rw [regroups.clients]
    exact regroups.free p key c isFree
  active c r p active pool := by
    rw [regroups.clients] at active pool ⊢
    exact regroups.busy c p (by simp [active])
      (keys.active c r p active pool)
  known c r active := by
    rw [regroups.clients] at active
    rw [regroups.nextClient]
    exact keys.known c r active
  linked c r active := by
    rw [regroups.clients] at active
    rw [regroups.requests]
    exact keys.linked c r active
  key p key r waits := by
    have same : next.location r = w.location r := by
      simp [location, regroups.config, regroups.requests]
    rw [same]
    exact keys.key p key r (regroups.waits p key r waits)
  apart r := by
    rintro ⟨c, active⟩ ⟨p, key, waits⟩
    rw [regroups.clients] at active
    exact keys.apart r ⟨c, active⟩ ⟨p, key, regroups.waits p key r waits⟩
  queueOnce := regroups.queueOnce
  queueHome p other key r here there :=
    keys.queueHome p other key r (regroups.waits p key r here)
      (regroups.waits other key r there)

/-! ## One list -/

theorem setEntry_clients
    (w : World)
    (p : Nat)
    (key : NetLoc)
    (entry : Option NetLocList)
    (pool : Nat)
    (other : NetLoc) :
    ((w.setEntry p key entry).pools pool).clients other =
      if pool = p ∧ other = key then entry
      else (w.pools pool).clients other := by
  by_cases samePool : pool = p
  · subst pool
    by_cases sameKey : other = key <;> simp [setEntry, sameKey]
  · simp [setEntry, samePool]

/-- The list of one location is replaced by one with no new clients or requests. -/
theorem Regroups.setEntry
    {w : World}
    {p : Nat}
    {key : NetLoc}
    {old new : NetLocList}
    (present : (w.pools p).clients key = some old)
    (member : ∀ c, c ∈ new.free ∨ c ∈ new.busy → c ∈ old.free ∨ c ∈ old.busy)
    (freeOnce : old.free.Nodup → new.free.Nodup)
    (free :
      ∀ c ∈ new.free, c ∈ old.free ∨ (w.clients c).request = none)
    (busy :
      ∀ c ∈ old.busy, (w.clients c).request.isSome → c ∈ new.busy)
    (queue : new.queue.Sublist old.queue)
    (keys : Keys w) :
    Regroups w (w.setEntry p key (some new)) := by
  refine
    { config := rfl, clients := rfl, requests := rfl, nextClient := rfl
      member := ?_, freeOnce := ?_, free := ?_, busy := ?_, waits := ?_
      queueOnce := ?_ }
  · intro pool other c
    simp only [Free, Busy, setEntry_clients]
    split
    · rename_i same
      obtain ⟨rfl, rfl⟩ := same
      simp only [present, Option.mem_def, Option.some.injEq,
        exists_eq_left']
      exact member c
    · exact id
  · intro pool other entry
    simp only [setEntry_clients]
    split
    · rintro ⟨rfl⟩
      exact freeOnce (keys.freeOnce p key old present)
    · exact keys.freeOnce pool other entry
  · intro pool other c
    simp only [Free, setEntry_clients]
    split
    · rename_i same
      obtain ⟨rfl, rfl⟩ := same
      simp only [Option.mem_def, Option.some.injEq, exists_eq_left']
      intro isFree
      rcases free c isFree with wasFree | idle
      · exact keys.free pool other c ⟨old, present, wasFree⟩
      · exact idle
    · exact keys.free pool other c
  · intro c pool active
    simp only [Busy, setEntry_clients]
    split
    · rename_i same
      obtain ⟨rfl, sameKey⟩ := same
      simp only [sameKey, present, Option.mem_def, Option.some.injEq,
        exists_eq_left']
      exact fun wasBusy => busy c wasBusy active
    · exact id
  · intro pool other r
    simp only [Waits, setEntry_clients]
    split
    · rename_i same
      obtain ⟨rfl, rfl⟩ := same
      simp only [present, Option.mem_def, Option.some.injEq,
        exists_eq_left']
      exact fun waits => (queue.map Place.req).subset waits
    · exact id
  · intro pool other entry
    simp only [setEntry_clients]
    split
    · rintro ⟨rfl⟩
      exact (keys.queueOnce p key old present).sublist (queue.map Place.req)
    · exact keys.queueOnce pool other entry

/-! ## Starting a request -/

/-- A request that has been given its scheme has the same location. -/
theorem location_of_withScheme
    {w next : World}
    {r : Nat}
    (config : next.config = w.config)
    (fields :
      (next.requests r).toRequestFields =
        (w.requests r).toRequestFields.withScheme) :
    next.location r = w.location r := by
  simp only [location, config, fields, location_idem]

theorem Started.fields
    {w next : World}
    {c r : Nat}
    (started : Started w c r next) :
    (next.requests r).toRequestFields =
      (w.requests r).toRequestFields.withScheme := by
  rw [started.request]
  rfl

theorem Started.location
    {w next : World}
    {c r : Nat}
    (started : Started w c r next)
    (other : Nat) :
    next.location other = w.location other := by
  by_cases same : other = r
  · subst other
    exact location_of_withScheme started.config started.fields
  · simp [World.location, started.config, started.requests other same]

/-- A client starts a request under the key of the request. -/
theorem Keys.started
    {w next : World}
    {c r : Nat}
    (keys : Keys w)
    (started : Started w c r next)
    (notWaiting : ¬ w.Waiting r)
    (known : c < w.nextClient)
    (home :
      ∀ p,
        (w.clients c).pool = some p →
        w.Busy p (w.location r) c ∧ ∀ key, ¬ w.Free p key c) :
    Keys next := by
  have busy : ∀ p key other, next.Busy p key other ↔ w.Busy p key other := by
    simp [Busy, started.pools]
  have free : ∀ p key other, next.Free p key other ↔ w.Free p key other := by
    simp [Free, started.pools]
  have waits : ∀ p key other, next.Waits p key other ↔ w.Waits p key other := by
    simp [Waits, started.pools]
  have pool : ∀ d, (next.clients d).pool = (w.clients d).pool := by
    intro d
    by_cases same : d = c
    · subst d
      rw [started.client]
    · rw [started.clients d same]
  have netloc : (next.clients c).netloc = w.location r := by
    rw [started.client]
    rfl
  refine
    { member := ?_, home := ?_, freeOnce := ?_, free := ?_, active := ?_
      known := ?_, linked := ?_, key := ?_, apart := ?_, queueOnce := ?_
      queueHome := ?_ }
  · intro p key d
    rw [free, busy, pool, started.nextClient]
    exact keys.member p key d
  · intro p key other d
    simp only [free, busy]
    exact keys.home p key other d
  · rw [started.pools]
    exact keys.freeOnce
  · intro p key d
    rw [free]
    intro isFree
    by_cases same : d = c
    · subst d
      have isMember := keys.member p key c (Or.inl isFree)
      exact ((home p isMember.1).2 key isFree).elim
    · rw [started.clients d same]
      exact keys.free p key d isFree
  · intro d s p active inPool
    rw [pool] at inPool
    rw [busy]
    by_cases same : d = c
    · subst d
      rw [netloc]
      exact (home p inPool).1
    · rw [started.clients d same] at active ⊢
      exact keys.active d s p active inPool
  · intro d s active
    rw [started.nextClient]
    by_cases same : d = c
    · subst d
      exact known
    · rw [started.clients d same] at active
      exact keys.known d s active
  · intro d s active
    by_cases same : d = c
    · subst d
      rw [started.active] at active
      cases active
      rw [started.request]
    · rw [started.clients d same] at active
      have wasLinked := keys.linked d s active
      have different : s ≠ r := by
        rintro rfl
        rw [started.unlinked] at wasLinked
        cases wasLinked
      rw [started.requests s different]
      exact wasLinked
  · intro p key s
    rw [waits, started.location]
    exact keys.key p key s
  · rintro s ⟨d, active⟩
    simp only [Waiting, waits]
    by_cases same : d = c
    · subst d
      rw [started.active] at active
      cases active
      exact notWaiting
    · rw [started.clients d same] at active
      exact keys.apart s ⟨d, active⟩
  · rw [started.pools]
    exact keys.queueOnce
  · intro p other key s
    simp only [waits]
    exact keys.queueHome p other key s

/-- An exception of `Client::request` leaves the pools alone. -/
theorem Quiet.of_refused
    {w next : World}
    {c r : Nat}
    (keys : Keys w)
    (refused : Refused w c r next) :
    Quiet w next := by
  obtain ⟨tcp, client⟩ := refused.client
  have others :
      ∀ d,
        (next.clients d).request = (w.clients d).request ∧
          (next.clients d).pool = (w.clients d).pool ∧
          (next.clients d).netloc = (w.clients d).netloc := by
    intro d
    by_cases same : d = c
    · subst d
      rw [client]
      exact ⟨rfl, rfl, rfl⟩
    · rw [refused.clients d same]
      exact ⟨rfl, rfl, rfl⟩
  refine
    { entries := ?_, nextClient := refused.nextClient
      request := fun d => Or.inl (others d).1
      pool := fun d => (others d).2.1
      netloc := fun d => (others d).2.2
      linked := ?_, location := ?_ }
  · intro p
    rw [refused.pools]
  · intro d s active
    by_cases same : s = r
    · subst s
      rcases refused.request with unchanged | ⟨_, unlinked, _⟩
      · rw [unchanged]
      · rw [(others d).1] at active
        rw [keys.linked d r active] at unlinked
        cases unlinked
    · rw [refused.requests s same]
  · intro s _
    by_cases same : s = r
    · subst s
      rcases refused.request with unchanged | ⟨_, _, _, linked, _⟩
      · simp [World.location, refused.config, unchanged]
      · refine location_of_withScheme refused.config ?_
        rw [linked]
        rfl
    · simp [World.location, refused.config, refused.requests s same]

/-! ## Finding a client -/

/-- A client that a pool has found for a request at a location. -/
structure Placed
    (w : World)
    (p : Nat)
    (key : NetLoc)
    (c : Nat)
    (placed : World) : Prop where
  keys : Keys placed
  config : placed.config = w.config
  requests : placed.requests = w.requests
  known : c < placed.nextClient
  pool : (placed.clients c).pool = some p
  busy : placed.Busy p key c
  notFree : ∀ other, ¬ placed.Free p other c
  waits : ∀ pool other r, placed.Waits pool other r → w.Waits pool other r

theorem Keys.notMember
    {w : World}
    (keys : Keys w)
    (p : Nat)
    (key : NetLoc) :
    ¬ (w.Free p key w.nextClient ∨ w.Busy p key w.nextClient) :=
  fun member => Nat.lt_irrefl _ (keys.member p key _ member).2

/-- A new client has no request, and it is in no list. -/
theorem Keys.newClient
    {w : World}
    (keys : Keys w)
    (loop : Nat)
    (pool : Option Nat) :
    Keys (w.newClient loop pool) := by
  have others :
      ∀ d r,
        ((w.newClient loop pool).clients d).request = some r →
        (w.newClient loop pool).clients d = w.clients d ∧
          (w.clients d).request = some r := by
    intro d r active
    by_cases same : d = w.nextClient
    · subst d
      simp [World.newClient, setClient] at active
    · have unchanged : (w.newClient loop pool).clients d = w.clients d := by
        simp [World.newClient, setClient, same]
      exact ⟨unchanged, by rwa [unchanged] at active⟩
  refine
    { member := ?_, home := keys.home, freeOnce := keys.freeOnce, free := ?_
      active := ?_, known := ?_, linked := ?_, key := keys.key, apart := ?_
      queueOnce := keys.queueOnce, queueHome := keys.queueHome }
  · intro p key c member
    have wasMember : w.Free p key c ∨ w.Busy p key c := member
    obtain ⟨inPool, below⟩ := keys.member p key c wasMember
    have different : c ≠ w.nextClient := Nat.ne_of_lt below
    refine ⟨?_, Nat.lt_succ_of_lt below⟩
    simpa [World.newClient, setClient, different] using inPool
  · intro p key c isFree
    have wasFree : w.Free p key c := isFree
    have below := (keys.member p key c (Or.inl wasFree)).2
    have different : c ≠ w.nextClient := Nat.ne_of_lt below
    simpa [World.newClient, setClient, different]
      using keys.free p key c wasFree
  · intro c r p active inPool
    obtain ⟨unchanged, was⟩ := others c r active
    rw [unchanged] at inPool ⊢
    exact keys.active c r p was inPool
  · intro c r active
    exact Nat.lt_succ_of_lt (keys.known c r (others c r active).2)
  · intro c r active
    exact keys.linked c r (others c r active).2
  · rintro r ⟨c, active⟩
    exact keys.apart r ⟨c, (others c r active).2⟩

/-- A new client becomes busy at a location. -/
theorem Keys.created
    {w : World}
    (keys : Keys w)
    {p : Nat}
    {key : NetLoc}
    {entry : NetLocList}
    (found :
      (w.pools p).clients key = none ∧ entry = {} ∨
        (w.pools p).clients key = some entry)
    (loop : Nat) :
    Placed w p key w.nextClient
      ((w.newClient loop (some p)).setEntry p key
        (some { entry with busy := entry.busy.insert w.nextClient })) := by
  have created := keys.newClient loop (some p)
  have pools : (w.newClient loop (some p)).pools = w.pools := rfl
  have entries :
      ∀ pool other,
        (((w.newClient loop (some p)).setEntry p key
            (some { entry with
              busy := entry.busy.insert w.nextClient })).pools pool).clients
            other =
          if pool = p ∧ other = key then
            some { entry with busy := entry.busy.insert w.nextClient }
          else
            (w.pools pool).clients other := by
    intro pool other
    rw [setEntry_clients, pools]
  have old :
      (∀ c ∈ entry.free, w.Free p key c) ∧
        (∀ c ∈ entry.busy, w.Busy p key c) ∧
        (∀ r ∈ entry.queue.map Place.req, w.Waits p key r) ∧
        entry.free.Nodup ∧ (entry.queue.map Place.req).Nodup := by
    rcases found with ⟨_, rfl⟩ | present
    · simp
    · exact ⟨fun c isFree => ⟨entry, present, isFree⟩,
        fun c isBusy => ⟨entry, present, isBusy⟩,
        fun r waits => ⟨entry, present, waits⟩,
        keys.freeOnce p key entry present, keys.queueOnce p key entry present⟩
  obtain ⟨oldFree, oldBusy, oldWaits, freeOnce, queueOnce⟩ := old
  generalize shape :
    (w.newClient loop (some p)).setEntry p key
      (some { entry with busy := entry.busy.insert w.nextClient }) = placed
  rw [shape] at entries
  have clients : placed.clients = (w.newClient loop (some p)).clients := by
    subst shape
    rfl
  have requests : placed.requests = w.requests := by
    subst shape
    rfl
  have config : placed.config = w.config := by
    subst shape
    rfl
  have nextClient : placed.nextClient = w.nextClient + 1 := by
    subst shape
    rfl
  have newPool : (placed.clients w.nextClient).pool = some p := by
    simp [clients, World.newClient, setClient]
  have free :
      ∀ pool other c, placed.Free pool other c → w.Free pool other c := by
    intro pool other c
    simp only [Free, entries]
    split
    · rename_i same
      obtain ⟨rfl, rfl⟩ := same
      simpa [Free] using oldFree c
    · exact id
  have waits :
      ∀ pool other r, placed.Waits pool other r → w.Waits pool other r := by
    intro pool other r
    simp only [Waits, entries]
    split
    · rename_i same
      obtain ⟨rfl, rfl⟩ := same
      simpa [Waits] using oldWaits r
    · exact id
  have busy :
      ∀ pool other c,
        placed.Busy pool other c ↔
          w.Busy pool other c ∨
            pool = p ∧ other = key ∧ c = w.nextClient := by
    intro pool other c
    simp only [Busy, entries]
    split
    · rename_i same
      obtain ⟨rfl, rfl⟩ := same
      rcases found with ⟨absent, rfl⟩ | present
      · simp [absent]
      · simp only [present, Option.mem_def, Option.some.injEq,
          exists_eq_left', List.mem_insert_iff, true_and]
        exact or_comm
    · rename_i different
      constructor
      · exact Or.inl
      · rintro (was | ⟨rfl, rfl, _⟩)
        · exact was
        · exact (different ⟨rfl, rfl⟩).elim
  refine
    { keys := ?_, config := config, requests := requests
      known := by rw [nextClient]; exact Nat.lt_succ_self _
      pool := newPool
      busy := (busy _ _ _).mpr (Or.inr ⟨rfl, rfl, rfl⟩)
      notFree := fun other isFree =>
        keys.notMember p other (Or.inl (free _ _ _ isFree))
      waits := waits }
  have member :
      ∀ pool other c,
        placed.Free pool other c ∨ placed.Busy pool other c →
        (w.Free pool other c ∨ w.Busy pool other c) ∨
          pool = p ∧ other = key ∧ c = w.nextClient := by
    intro pool other c isMember
    rcases isMember with isFree | isBusy
    · exact Or.inl (Or.inl (free pool other c isFree))
    · rcases (busy pool other c).mp isBusy with was | new
      · exact Or.inl (Or.inr was)
      · exact Or.inr new
  refine
    { member := ?_, home := ?_, freeOnce := ?_, free := ?_, active := ?_
      known := ?_, linked := ?_, key := ?_, apart := ?_, queueOnce := ?_
      queueHome := ?_ }
  · intro pool other c isMember
    rcases member pool other c isMember with was | ⟨rfl, rfl, rfl⟩
    · rw [clients, nextClient]
      exact created.member pool other c was
    · exact ⟨newPool, by rw [nextClient]; exact Nat.lt_succ_self _⟩
  · intro pool here there c isHere isThere
    rcases member pool here c isHere with wasHere | ⟨rfl, rfl, rfl⟩
    · rcases member pool there c isThere with wasThere | ⟨rfl, rfl, rfl⟩
      · exact keys.home pool here there c wasHere wasThere
      · exact (keys.notMember _ _ wasHere).elim
    · rcases member pool there w.nextClient isThere with
        wasThere | ⟨_, rfl, _⟩
      · exact (keys.notMember _ _ wasThere).elim
      · rfl
  · intro pool other list
    rw [entries]
    split
    · rintro ⟨rfl⟩
      exact freeOnce
    · exact keys.freeOnce pool other list
  · intro pool other c isFree
    rw [clients]
    exact created.free pool other c (free pool other c isFree)
  · intro c r pool active inPool
    rw [clients] at active inPool ⊢
    exact (busy _ _ _).mpr (Or.inl (created.active c r pool active inPool))
  · intro c r active
    rw [clients] at active
    rw [nextClient]
    exact created.known c r active
  · intro c r active
    rw [clients] at active
    rw [requests]
    exact created.linked c r active
  · intro pool other r isWaiting
    have same : placed.location r = w.location r := by
      simp [location, config, requests]
    rw [same]
    exact keys.key pool other r (waits pool other r isWaiting)
  · rintro r ⟨c, active⟩ ⟨pool, other, isWaiting⟩
    rw [clients] at active
    exact created.apart r ⟨c, active⟩ ⟨pool, other, waits _ _ _ isWaiting⟩
  · intro pool other list
    rw [entries]
    split
    · rintro ⟨rfl⟩
      exact queueOnce
    · exact keys.queueOnce pool other list
  · intro pool there other r here isThere
    exact keys.queueHome pool there other r (waits _ _ _ here)
      (waits _ _ _ isThere)

theorem Keys.places
    {w placed : World}
    {p c : Nat}
    {key : NetLoc}
    (keys : Keys w)
    (places : Places w p key c placed) :
    Placed w p key c placed := by
  cases places with
  | creates found =>
      refine keys.created ?_ _
      exact found.imp id fun present => present.1
  | @reuses entry _ present isFree =>
      have wasFree : w.Free p key c := ⟨entry, present, isFree⟩
      have isMember := keys.member p key c (Or.inl wasFree)
      have freeOnce := keys.freeOnce p key entry present
      have regroups :
          Regroups w
            (w.setEntry p key
              (some
                { entry with
                  free := entry.free.erase c
                  busy := entry.busy.insert c })) := by
        refine Regroups.setEntry present ?_ ?_ ?_ ?_ (List.Sublist.refl _) keys
        · rintro d (inFree | inBusy)
          · exact Or.inl (List.mem_of_mem_erase inFree)
          · rcases List.mem_insert_iff.mp inBusy with rfl | was
            · exact Or.inl isFree
            · exact Or.inr was
        · exact List.Nodup.erase c
        · exact fun d inFree => Or.inl (List.mem_of_mem_erase inFree)
        · exact fun d inBusy _ => List.mem_insert_of_mem inBusy
      refine
        { keys := keys.regroups regroups, config := rfl, requests := rfl
          known := isMember.2, pool := isMember.1, busy := ?_, notFree := ?_
          waits := regroups.waits }
      · simp [Busy, setEntry_clients]
      · intro other
        simp only [Free, setEntry_clients]
        split
        · simp [freeOnce.mem_erase_iff]
        · rename_i different
          intro isThere
          exact different ⟨trivial,
            keys.home p other key c (Or.inl isThere) (Or.inl wasFree)⟩

/-- A pool starts a request on a client that it has found. -/
theorem Placed.started
    {w placed next : World}
    {p c r : Nat}
    (isPlaced : Placed w p (w.location r) c placed)
    (started : Started placed c r next)
    (notWaiting : ¬ w.Waiting r) :
    Keys next := by
  have location : placed.location r = w.location r := by
    simp [World.location, isPlaced.config, isPlaced.requests]
  refine isPlaced.keys.started started ?_ isPlaced.known ?_
  · rintro ⟨pool, other, waits⟩
    exact notWaiting ⟨pool, other, isPlaced.waits pool other r waits⟩
  · intro pool inPool
    rw [isPlaced.pool] at inPool
    cases inPool
    rw [location]
    exact ⟨isPlaced.busy, isPlaced.notFree⟩

/-- A request joins the queue of its location. -/
theorem Keys.enqueued
    {w : World}
    {p r : Nat}
    {entry : NetLocList}
    (keys : Keys w)
    (present : (w.pools p).clients (w.location r) = some entry)
    (idle : ¬ w.Active r)
    (notWaiting : ¬ w.Waiting r) :
    Keys (w.enqueue p r (w.location r) entry) := by
  have entries :
      ∀ pool other,
        ((w.enqueue p r (w.location r) entry).pools pool).clients other =
          if pool = p ∧ other = w.location r then
            some
              { entry with
                queue := entry.queue ++ [{ ticket := entry.nextTicket, req := r }]
                generation := entry.generation + 1
                nextTicket := entry.nextTicket + 1 }
          else
            (w.pools pool).clients other :=
    setEntry_clients w p (w.location r) _
  have free :
      ∀ pool other c,
        (w.enqueue p r (w.location r) entry).Free pool other c ↔
          w.Free pool other c := by
    intro pool other c
    simp only [Free, entries]
    split
    · rename_i same
      obtain ⟨rfl, rfl⟩ := same
      simp [present]
    · exact Iff.rfl
  have busy :
      ∀ pool other c,
        (w.enqueue p r (w.location r) entry).Busy pool other c ↔
          w.Busy pool other c := by
    intro pool other c
    simp only [Busy, entries]
    split
    · rename_i same
      obtain ⟨rfl, rfl⟩ := same
      simp [present]
    · exact Iff.rfl
  have waits :
      ∀ pool other s,
        (w.enqueue p r (w.location r) entry).Waits pool other s ↔
          w.Waits pool other s ∨
            pool = p ∧ other = w.location r ∧ s = r := by
    intro pool other s
    simp only [Waits, entries]
    split
    · rename_i same
      obtain ⟨rfl, rfl⟩ := same
      simp [present, eq_comm]
    · rename_i different
      constructor
      · exact Or.inl
      · rintro (was | ⟨rfl, rfl, _⟩)
        · exact was
        · exact (different ⟨rfl, rfl⟩).elim
  have clients : (w.enqueue p r (w.location r) entry).clients = w.clients := rfl
  have request :
      ∀ s,
        ((w.enqueue p r (w.location r) entry).requests s).client =
            (w.requests s).client ∧
          (w.enqueue p r (w.location r) entry).location s = w.location s := by
    intro s
    by_cases same : s = r
    · subst s
      simp only [World.location, enqueue, emit, setRequest, setEntry,
        Function.update_self]
      rw [ensureTimerActive_eq]
      exact ⟨rfl, rfl⟩
    · simp [World.location, enqueue, emit, setRequest, setEntry, same]
  refine
    { member := ?_, home := ?_, freeOnce := ?_, free := ?_, active := ?_
      known := ?_, linked := ?_, key := ?_, apart := ?_, queueOnce := ?_
      queueHome := ?_ }
  · intro pool other c
    rw [free, busy]
    exact keys.member pool other c
  · intro pool here there c
    simp only [free, busy]
    exact keys.home pool here there c
  · intro pool other list
    rw [entries]
    split
    · rintro ⟨rfl⟩
      exact keys.freeOnce p _ entry present
    · exact keys.freeOnce pool other list
  · intro pool other c
    rw [free, clients]
    exact keys.free pool other c
  · intro c s pool
    rw [busy, clients]
    exact keys.active c s pool
  · exact keys.known
  · intro c s active
    rw [(request s).1]
    exact keys.linked c s active
  · intro pool other s isWaiting
    rw [(request s).2]
    rcases (waits pool other s).mp isWaiting with was | ⟨_, rfl, rfl⟩
    · exact keys.key pool other s was
    · rfl
  · rintro s ⟨c, active⟩ ⟨pool, other, isWaiting⟩
    rcases (waits pool other s).mp isWaiting with was | ⟨_, _, rfl⟩
    · exact keys.apart s ⟨c, active⟩ ⟨pool, other, was⟩
    · exact idle ⟨c, active⟩
  · intro pool other list
    rw [entries]
    split
    · rintro ⟨rfl⟩
      simp only [List.map_append, List.map_cons, List.map_nil]
      refine List.nodup_append.mpr
        ⟨keys.queueOnce p _ entry present, by simp, ?_⟩
      intro s wasThere t isNew
      rw [List.mem_singleton] at isNew
      rintro rfl
      subst isNew
      exact notWaiting ⟨p, _, entry, present, wasThere⟩
    · exact keys.queueOnce pool other list
  · intro pool there other s here isThere
    rcases (waits pool other s).mp here with was | ⟨rfl, _, rfl⟩
    · rcases (waits there other s).mp isThere with alsoWas | ⟨rfl, _, rfl⟩
      · exact keys.queueHome pool there other s was alsoWas
      · exact (notWaiting ⟨pool, other, was⟩).elim
    · rcases (waits there other s).mp isThere with was | ⟨rfl, _, _⟩
      · exact (notWaiting ⟨there, other, was⟩).elim
      · rfl

/-! ## Quiet updates -/

namespace Quiet

theorem emit (w : World) (event : Event) : Quiet w (w.emit event) :=
  ⟨fun _ => rfl, rfl, fun _ => Or.inl rfl, fun _ => rfl, fun _ => rfl,
    fun _ _ _ => rfl, fun _ _ => rfl⟩

theorem setClient
    (w : World)
    (c : Nat)
    (client : Client)
    (request :
      client.request = (w.clients c).request ∨ client.request = none)
    (pool : client.pool = (w.clients c).pool)
    (netloc : client.netloc = (w.clients c).netloc) :
    Quiet w (w.setClient c client) where
  entries _ := rfl
  nextClient := rfl
  request d := by
    by_cases same : d = c
    · subst d
      simpa [World.setClient] using request
    · simp [World.setClient, same]
  pool d := by
    by_cases same : d = c
    · subst d
      simpa [World.setClient] using pool
    · simp [World.setClient, same]
  netloc d := by
    by_cases same : d = c
    · subst d
      simpa [World.setClient] using netloc
    · simp [World.setClient, same]
  linked _ _ _ := rfl
  location _ _ := rfl

theorem setTcp (w : World) (c : Nat) (tcp : Tcp) : Quiet w (w.setTcp c tcp) :=
  setClient w c _ (Or.inl rfl) rfl rfl

theorem reset (w : World) (c : Nat) : Quiet w (w.reset c) :=
  setTcp w c _

theorem weak (w : World) (c : Nat) (value : Bool) : Quiet w (w.weak c value) :=
  setTcp w c _

theorem rested (w : World) (c : Nat) : Quiet w (w.rested c) :=
  setClient w c _ (Or.inl rfl) rfl rfl

theorem detached (w : World) (c : Nat) : Quiet w (w.detached c) :=
  setClient w c _ (Or.inr rfl) rfl rfl

theorem setRequest
    (w : World)
    (r : Nat)
    (request : Request)
    (client : w.Active r → request.client = (w.requests r).client)
    (location :
      w.Waiting r →
      w.config.netloc request.toRequestFields.withScheme = w.location r) :
    Quiet w (w.setRequest r request) where
  entries _ := rfl
  nextClient := rfl
  request _ := Or.inl rfl
  pool _ := rfl
  netloc _ := rfl
  linked c s active := by
    by_cases same : s = r
    · subst s
      simpa [World.setRequest] using client ⟨c, active⟩
    · simp [World.setRequest, same]
  location s waiting := by
    by_cases same : s = r
    · subst s
      simpa [World.setRequest, World.location] using location waiting
    · simp [World.setRequest, World.location, same]

/-- Only library members of a request change, and not its client. -/
theorem setLibrary
    (w : World)
    (r : Nat)
    (request : Request)
    (client : request.client = (w.requests r).client)
    (fields :
      request.toRequestFields = (w.requests r).toRequestFields) :
    Quiet w (w.setRequest r request) :=
  setRequest w r request (fun _ => client) fun _ => by
    rw [fields]
    rfl

theorem write (w : World) (c : Nat) (piece : Piece) :
    Quiet w (w.write c piece) := by
  unfold World.write
  dsimp only
  split
  · exact setTcp w c _
  · exact (setTcp w c _).trans (emit _ _)

theorem of_sends
    {w next : World}
    {c r : Nat}
    (sends : Sends w c r next) :
    Quiet w next := by
  obtain ⟨field, queue, streaming, completed, pieces, rfl, _⟩ := sends
  refine
    { entries := fun _ => rfl, nextClient := rfl, request := fun d => ?_
      pool := fun d => ?_, netloc := fun d => ?_, linked := fun d s _ => ?_
      location := fun s _ => ?_ }
  · by_cases same : d = c <;> simp [sent, same]
  · by_cases same : d = c <;> simp [sent, same]
  · by_cases same : d = c <;> simp [sent, same]
  · by_cases same : s = r <;> simp [sent, same]
  · by_cases same : s = r <;> simp [sent, World.location, same]

end Quiet

/-! ## Finishing a request -/

/-- A fault other than a failed assertion of `putback`. -/
def FindsClient (reason : Fault) : Prop :=
  reason ≠ .putbackNoEntry ∧ reason ≠ .putbackNotBusy

/-- A client of a pool that has no request any more and is still busy. -/
structure Detached (w : World) (p c : Nat) : Prop where
  idle : (w.clients c).request = none
  pool : (w.clients c).pool = some p
  known : c < w.nextClient
  busy : w.Busy p (w.clients c).netloc c
  notFree : ∀ key, ¬ w.Free p key c

theorem Detached.quiet
    {w next : World}
    {p c : Nat}
    (detached : Detached w p c)
    (quiet : Quiet w next) :
    Detached next p c where
  idle := by
    rcases quiet.request c with same | lost
    · rw [same]
      exact detached.idle
    · exact lost
  pool := (quiet.pool c).trans detached.pool
  known := by
    rw [quiet.nextClient]
    exact detached.known
  busy := by
    rw [quiet.busy, quiet.netloc]
    exact detached.busy
  notFree key := by
    rw [quiet.free]
    exact detached.notFree key

/-- A request that is on its own: no client has it and no queue. -/
def Loose (w : World) (r : Nat) : Prop :=
  ¬ w.Active r ∧ ¬ w.Waiting r

theorem Loose.quiet
    {w next : World}
    {r : Nat}
    (loose : Loose w r)
    (quiet : Quiet w next) :
    Loose next r := by
  refine ⟨?_, ?_⟩
  · rintro ⟨c, active⟩
    exact loose.1 ⟨c, quiet.had active⟩
  · rw [quiet.waiting]
    exact loose.2

/-- The first request of a queue leaves it. -/
theorem Keys.pops
    {w : World}
    {p : Nat}
    {key : NetLoc}
    {entry : NetLocList}
    {place : Place}
    {rest : List Place}
    (keys : Keys w)
    (present : (w.pools p).clients key = some entry)
    (queue : entry.queue = place :: rest) :
    Regroups w (w.setEntry p key (some { entry with queue := rest })) ∧
      ¬ (w.setEntry p key (some { entry with queue := rest })).Waiting
        place.req := by
  have regroups :
      Regroups w (w.setEntry p key (some { entry with queue := rest })) := by
    refine Regroups.setEntry present (fun _ => id) id (fun _ => Or.inl)
      (fun _ busy _ => busy) ?_ keys
    rw [queue]
    exact List.sublist_cons_self place rest
  refine ⟨regroups, ?_⟩
  rintro ⟨pool, other, waits⟩
  have was : w.Waits p key place.req := ⟨entry, present, by simp [queue]⟩
  have alsoWas := regroups.waits pool other place.req waits
  have sameKey : other = key :=
    (keys.key pool other place.req alsoWas).symm.trans
      (keys.key p key place.req was)
  subst sameKey
  have samePool := keys.queueHome pool p other place.req alsoWas was
  obtain ⟨list, member, inQueue⟩ := waits
  have once := keys.queueOnce p other entry present
  rw [queue, List.map_cons, List.nodup_cons] at once
  subst samePool
  simp only [setEntry_clients, and_self, ↓reduceIte, Option.mem_def,
    Option.some.injEq] at member
  subst member
  exact once.1 inQueue

theorem putback_keys
    {w : World}
    {p c : Nat}
    (keys : Keys w)
    (detached : Detached w p c) :
    (w.putback p c).Post
      (fun next =>
        Keys next ∧ next.config = w.config ∧
          ∀ r,
            Loose w r →
            Loose next r ∧ next.requests r = w.requests r)
      Keys FindsClient := by
  obtain ⟨entry, present, isBusy⟩ := detached.busy
  refine (putback_post w p c).imp ?_ ?_ ?_
  · intro next putsBack
    cases putsBack with
    | @starts found place rest _ foundPresent queue started =>
        obtain ⟨regroups, notWaiting⟩ := keys.pops foundPresent queue
        have waited : w.Waits p (w.clients c).netloc place.req :=
          ⟨found, foundPresent, by simp [queue]⟩
        have popped := keys.regroups regroups
        refine ⟨popped.started started notWaiting detached.known ?_,
          started.config, ?_⟩
        · intro pool inPool
          have samePool : p = pool :=
            Option.some.inj (detached.pool.symm.trans inPool)
          subst samePool
          have location :
              (w.setEntry p (w.clients c).netloc
                (some { found with queue := rest })).location place.req =
                (w.clients c).netloc :=
            keys.key p _ place.req waited
          rw [location]
          refine ⟨⟨{ found with queue := rest }, ?_, ?_⟩, ?_⟩
          · simp [setEntry_clients]
          · rw [present] at foundPresent
            cases foundPresent
            exact isBusy
          · intro key isFree
            refine detached.notFree key ?_
            obtain ⟨list, member, inFree⟩ := isFree
            rw [setEntry_clients] at member
            split at member
            · rename_i same
              obtain ⟨_, rfl⟩ := same
              cases member
              exact ⟨found, foundPresent, inFree⟩
            · exact ⟨list, member, inFree⟩
        · intro r loose
          have different : r ≠ place.req := by
            rintro rfl
            exact loose.2 ⟨p, _, waited⟩
          refine ⟨⟨?_, ?_⟩, started.requests r different⟩
          · rintro ⟨d, active⟩
            by_cases same : d = c
            · subst d
              rw [started.active] at active
              exact different (Option.some.inj active).symm
            · rw [started.clients d same] at active
              exact loose.1 ⟨d, active⟩
          · rintro ⟨pool, key, waits⟩
            refine loose.2 ⟨pool, key, regroups.waits pool key r ?_⟩
            obtain ⟨list, member, inQueue⟩ := waits
            rw [started.pools] at member
            exact ⟨list, member, inQueue⟩
    | @frees found foundPresent queue _ =>
        have regroups :
            Regroups w
              (w.setEntry p (w.clients c).netloc
                (some
                  { found with
                    free := found.free.insert c
                    busy := found.busy.erase c })) := by
          refine Regroups.setEntry foundPresent ?_ ?_ ?_ ?_
            (List.Sublist.refl _) keys
          · rintro d (inFree | inBusy)
            · rcases List.mem_insert_iff.mp inFree with rfl | was
              · rw [present] at foundPresent
                cases foundPresent
                exact Or.inr isBusy
              · exact Or.inl was
            · exact Or.inr (List.mem_of_mem_erase inBusy)
          · exact List.Nodup.insert
          · intro d inFree
            rcases List.mem_insert_iff.mp inFree with rfl | was
            · exact Or.inr detached.idle
            · exact Or.inl was
          · intro d wasBusy active
            refine (List.mem_erase_of_ne ?_).mpr wasBusy
            rintro rfl
            rw [detached.idle] at active
            cases active
        refine ⟨keys.regroups regroups, rfl,
          fun r loose => ⟨⟨loose.1, ?_⟩, rfl⟩⟩
        rintro ⟨pool, key, waits⟩
        exact loose.2 ⟨pool, key, regroups.waits pool key r waits⟩
  · rintro next ⟨found, place, rest, foundPresent, queue, refused⟩
    have popped := keys.regroups (keys.pops foundPresent queue).1
    exact popped.quiet (Quiet.of_refused popped refused)
  · rintro reason (rfl | ⟨_, absent⟩ | ⟨_, found, foundPresent, notBusy⟩)
    · exact ⟨by decide, by decide⟩
    · rw [present] at absent
      cases absent
    · rw [present] at foundPresent
      cases foundPresent
      exact (notBusy isBusy).elim

/-- `Pool::request` of a request whose location does not depend on its scheme. -/
theorem poolRequest_keys
    {w : World}
    {p r : Nat}
    (keys : Keys w)
    (loose : Loose w r)
    (steady : w.netloc r = w.location r) :
    (w.poolRequest p r).Post Keys Keys FindsClient := by
  have owned :
      Quiet w (w.setRequest r { w.requests r with pool := some p }) :=
    Quiet.setLibrary w r _ rfl rfl
  have ownedKeys := keys.quiet owned
  have ownedLoose := loose.quiet owned
  have ownedSteady :
      (w.setRequest r { w.requests r with pool := some p }).netloc r =
        (w.setRequest r { w.requests r with pool := some p }).location r := by
    have same :
        ((w.setRequest r
          { w.requests r with pool := some p }).requests r).toRequestFields =
          (w.requests r).toRequestFields := by
      simp [setRequest]
    unfold netloc location at steady ⊢
    rw [same]
    exact steady
  refine (poolRequest_post w p r).imp ?_ ?_ ?_
  · rintro next ⟨_, pooled⟩
    cases pooled with
    | starts places started =>
        rw [ownedSteady] at places
        exact (ownedKeys.places places).started started ownedLoose.2
    | queues present _ _ =>
        rw [ownedSteady] at present ⊢
        exact ownedKeys.enqueued present ownedLoose.1 ownedLoose.2
  · rintro next (⟨exception, rfl⟩ | ⟨c, placed, places, refused⟩)
    · exact keys.quiet (Quiet.emit w _)
    · have placedKeys := (ownedKeys.places places).keys
      exact placedKeys.quiet (Quiet.of_refused placedKeys refused)
  · rintro reason rfl
    exact ⟨by decide, by decide⟩

theorem stopForm_post (w : World) (c r : Nat) :
    (w.stopForm c r).Post (Quiet w) (fun _ => False) FindsClient := by
  have stopped :
      ∀ middle : World,
        Quiet middle
          (middle.setClient c { middle.clients c with formField := -1 }) :=
    fun middle => Quiet.setClient middle c _ (Or.inl rfl) rfl rfl
  unfold stopForm
  dsimp only
  split
  · exact Quiet.refl w
  · split
    · exact ⟨by decide, by decide⟩
    · split
      · exact ⟨by decide, by decide⟩
      · refine Quiet.trans ?_ (stopped _)
        exact Quiet.setLibrary w r _ rfl rfl
    · exact stopped w

/-- A client gives its request up. -/
theorem Keys.detach
    {w next : World}
    {c r : Nat}
    (keys : Keys w)
    (active : (w.clients c).request = some r)
    (quiet : Quiet w next)
    (idle : (next.clients c).request = none) :
    Loose next r ∧
      ∀ p, (next.clients c).pool = some p → Detached next p c := by
  refine ⟨⟨?_, ?_⟩, ?_⟩
  · rintro ⟨d, still⟩
    have had := quiet.had still
    have same : d = c :=
      Option.some.inj ((keys.linked d r had).symm.trans (keys.linked c r active))
    subst d
    rw [idle] at still
    cases still
  · rw [quiet.waiting]
    exact keys.apart r ⟨c, active⟩
  · intro p inPool
    rw [quiet.pool] at inPool
    refine
      { idle := idle, pool := (quiet.pool c).trans inPool
        known := by rw [quiet.nextClient]; exact keys.known c r active
        busy := ?_, notFree := ?_ }
    · rw [quiet.busy, quiet.netloc]
      exact keys.active c r p active inPool
    · intro key isFree
      rw [quiet.free] at isFree
      rw [keys.free p key c isFree] at active
      cases active

theorem releaseClient_keys
    {w : World}
    {c r : Nat}
    (response : Option Response)
    (error : Option ErrorCode)
    (keys : Keys w)
    (loose : Loose w r)
    (detached : ∀ p, (w.clients c).pool = some p → Detached w p c) :
    (w.releaseClient c r response error).Post
      (fun next => Keys next ∧ Loose next r) Keys FindsClient := by
  obtain ⟨drops, released⟩ := releaseClient_cases w c r response error
  rw [released]
  generalize shape :
    (if drops = true then w.reset c else w.weak c true) = kept
  have either :
      ∀ drops : Bool,
        Quiet w (if drops = true then w.reset c else w.weak c true) := by
    intro drops
    cases drops
    · exact Quiet.weak w c true
    · exact Quiet.reset w c
  have keptQuiet : Quiet w kept := shape ▸ either _
  refine Straight.Post.andThen ((stopForm_post kept c r).imp
    (fun _ => id) (fun _ => False.elim) (fun _ => id)) ?_
  intro stopped stoppedQuiet
  have quiet : Quiet w (stopped.rested c) :=
    (keptQuiet.trans stoppedQuiet).trans (Quiet.rested stopped c)
  split
  · exact ⟨keys.quiet quiet, loose.quiet quiet⟩
  · rename_i p inPool
    have wasIn : (w.clients c).pool = some p := by
      rw [← quiet.pool]
      exact inPool
    exact (putback_keys (keys.quiet quiet)
      ((detached p wasIn).quiet quiet)).imp
      (fun _ done => ⟨done.1, (done.2.2 r (loose.quiet quiet)).1⟩)
      (fun _ => id) (fun _ => id)

theorem finishAndNotify_keys
    {w : World}
    {r : Nat}
    (response : Option Response)
    (error : Option ErrorCode)
    (keys : Keys w)
    (idle : ¬ w.Active r) :
    (w.finishAndNotify r response error).Holds Keys FindsClient := by
  refine keys.quiet (Quiet.trans ?_ (Quiet.emit _ _))
  refine Quiet.setRequest w r _ ?_ fun _ => rfl
  exact fun active => (idle active).elim

theorem finishRequest_keys
    {w : World}
    (c : Nat)
    (error : Option ErrorCode)
    (keys : Keys w) :
    (w.finishRequest c error).Holds Keys FindsClient := by
  cases active : (w.clients c).request with
  | none =>
      unfold finishRequest
      rw [active]
      exact ⟨by decide, by decide⟩
  | some r =>
      have quiet := Quiet.detached w c
      obtain ⟨loose, detached⟩ :=
        keys.detach active quiet (by simp [World.detached, setClient])
      unfold finishRequest
      simp only [active]
      split
      · exact ⟨by decide, by decide⟩
      · refine Straight.Post.before
          (releaseClient_keys _ _ (keys.quiet quiet) loose detached) ?_
        rintro next ⟨nextKeys, nextLoose⟩
        exact finishAndNotify_keys _ _ nextKeys nextLoose.1

theorem cancel_keys
    {w : World}
    (c : Nat)
    (error : Option ErrorCode)
    (keys : Keys w) :
    (w.cancel c error).Holds Keys FindsClient := by
  unfold cancel
  dsimp only
  split
  · exact keys
  · exact finishRequest_keys c error
      (keys.quiet (Quiet.setClient w c _ (Or.inl rfl) rfl rfl))

theorem timedOut_keys
    {w : World}
    (c : Nat)
    (keys : Keys w) :
    (w.timedOut c).Holds Keys FindsClient :=
  cancel_keys c _ keys

/-! ## Following a redirect -/

/-- The request of a client is changed, except for its client. -/
theorem Keys.rewrites
    {w : World}
    {c r : Nat}
    (keys : Keys w)
    (active : (w.clients c).request = some r)
    (request : Request)
    (client : request.client = (w.requests r).client) :
    Quiet w (w.setRequest r request) :=
  Quiet.setRequest w r request (fun _ => client) fun waiting =>
    (keys.apart r ⟨c, active⟩ waiting).elim

theorem analyzeRequest_keys
    {w : World}
    (c : Nat)
    (keys : Keys w) :
    (w.analyzeRequest c).Holds Keys FindsClient := by
  unfold analyzeRequest
  dsimp only
  split
  · exact ⟨by decide, by decide⟩
  · exact ⟨by decide, by decide⟩
  · rename_i r response active _
    split
    · exact keys
    · split
      · split
        · exact cancel_keys c _ keys
        · have counted :
              Quiet w
                (w.setRequest r
                  { w.requests r with
                    redirectionCounter :=
                      ((w.requests r).redirectionCounter + 1) % 2 ^ 16 }) :=
            Quiet.setLibrary w r _ rfl rfl
          split
          · exact cancel_keys c _ (keys.quiet counted)
          · split
            · exact cancel_keys c _ (keys.quiet counted)
            · rename_i location _
              have redirects :=
                (keys.quiet counted).rewrites active
                  (Request.redirectedTo
                    { w.requests r with
                      redirectionCounter :=
                        ((w.requests r).redirectionCounter + 1) % 2 ^ 16 }
                    location)
                  (by simp [setRequest, Request.redirectedTo])
              exact ((keys.quiet counted).quiet redirects).quiet
                (Quiet.setClient _ c _ (Or.inl rfl) rfl rfl)
      · exact finishRequest_keys c none keys

/-- A request goes on under the key of its client, or under its own. -/
def GoesInPlace (w : World) (c r : Nat) : Prop :=
  (w.Elsewhere c r → w.netloc r = w.location r) ∧
    (¬ w.Elsewhere c r → w.location r = (w.clients c).netloc)

/-- A redirect of a pool's client goes on under the right key. -/
def FollowsInPlace (w : World) (c : Nat) : Prop :=
  (w.clients c).redirectCanceled = true ∨
    (w.clients c).pool = none ∨
      ∀ r, (w.clients c).request = some r → w.GoesInPlace c r

/-- Two states in which a request has the same location, with and without scheme. -/
theorem sameLocation
    {w next : World}
    {r : Nat}
    (config : next.config = w.config)
    (fields :
      (next.requests r).toRequestFields = (w.requests r).toRequestFields) :
    next.netloc r = w.netloc r ∧ next.location r = w.location r := by
  simp only [World.netloc, World.location, config, fields, and_self]

theorem hopping_fields (w : World) (c r : Nat) (response : Response) :
    ((w.hopping c r response).requests r).toRequestFields =
      (w.requests r).toRequestFields := by
  unfold hopping
  dsimp only
  split <;>
    simp [detached, reset, setTcp, setClient, setRequest,
      Request.cleanupAfterRedirect]

theorem hopping_config (w : World) (c r : Nat) (response : Response) :
    (w.hopping c r response).config = w.config := by
  unfold hopping
  dsimp only
  split <;> rfl

theorem hopping_keys
    {w : World}
    {c r : Nat}
    (response : Response)
    (keys : Keys w)
    (active : (w.clients c).request = some r) :
    Quiet w (w.hopping c r response) ∧
      ((w.hopping c r response).clients c).request = none := by
  have gone := Quiet.detached w c
  have idle : ((w.detached c).clients c).request = none := by
    simp [World.detached, setClient]
  have loose := (keys.detach active gone idle).1
  have unlinked :
      Quiet (w.detached c)
        ((w.detached c).setRequest r
          { (w.detached c).requests r with client := none }) :=
    Quiet.setRequest _ r _ (fun still => (loose.1 still).elim) fun _ => rfl
  have unlinkedLoose := loose.quiet unlinked
  have cleaned :
      ∀ next : World,
        Loose next r →
        Quiet next (next.setRequest r (next.requests r).cleanupAfterRedirect) :=
    fun next free =>
      Quiet.setRequest next r _ (fun still => (free.1 still).elim)
        fun _ => rfl
  unfold hopping
  dsimp only
  split
  · refine ⟨(gone.trans unlinked).trans (cleaned _ unlinkedLoose), ?_⟩
    exact idle
  · have dropped := Quiet.reset
      ((w.detached c).setRequest r
        { (w.detached c).requests r with client := none }) c
    refine ⟨((gone.trans unlinked).trans dropped).trans
      (cleaned _ (unlinkedLoose.quiet dropped)), ?_⟩
    simp [World.detached, reset, setTcp, setClient, setRequest]

theorem followRedirect_keys
    {w : World}
    {c r : Nat}
    (response : Response)
    (keys : Keys w)
    (active : (w.clients c).request = some r)
    (follows : (w.clients c).pool = none ∨ w.GoesInPlace c r) :
    (w.followRedirect c r response).Post Keys Keys FindsClient := by
  obtain ⟨quiet, idle⟩ := hopping_keys response keys active
  obtain ⟨loose, detached⟩ := keys.detach active quiet idle
  have hopped := keys.quiet quiet
  obtain ⟨netloc, location⟩ :=
    sameLocation (hopping_config w c r response)
      (hopping_fields w c r response)
  have self :
      (∀ p,
        (w.clients c).pool = some p → w.location r = (w.clients c).netloc) →
      ((w.hopping c r response).clientRequest c r).Post Keys Keys
        FindsClient := by
    intro stays
    refine (clientRequest_post _ c r).imp ?_ ?_ ?_
    · intro next started
      refine hopped.started started loose.2 ?_ ?_
      · rw [quiet.nextClient]
        exact keys.known c r active
      · intro p inPool
        have isDetached := detached p inPool
        rw [location, stays p (by rw [← quiet.pool]; exact inPool),
          ← quiet.netloc]
        exact ⟨isDetached.busy, isDetached.notFree⟩
    · exact fun next refused => hopped.quiet (Quiet.of_refused hopped refused)
    · rintro reason rfl
      exact ⟨by decide, by decide⟩
  unfold followRedirect
  dsimp only
  split
  · rename_i alone
    exact self fun p inPool => by
      rw [alone] at inPool
      cases inPool
  · rename_i p inPool
    have goes := follows.resolve_left (by simp [inPool])
    split
    · rename_i elsewhere
      have rests := Quiet.rested (w.hopping c r response) c
      have isDetached :=
        (detached p ((quiet.pool c).trans inPool)).quiet rests
      refine Straight.Post.andThen (putback_keys (hopped.quiet rests)
        isDetached) ?_
      rintro next ⟨nextKeys, config, others⟩
      obtain ⟨nextLoose, same⟩ := others r (loose.quiet rests)
      have sameFields :
          ((next.weak c true).requests r).toRequestFields =
            ((w.hopping c r response).requests r).toRequestFields := by
        change (next.requests r).toRequestFields = _
        rw [same]
        rfl
      have sameConfig :
          (next.weak c true).config = (w.hopping c r response).config :=
        config
      obtain ⟨nextNetloc, nextLocation⟩ := sameLocation sameConfig sameFields
      refine poolRequest_keys (nextKeys.quiet (Quiet.weak next c true))
        (nextLoose.quiet (Quiet.weak next c true)) ?_
      rw [nextNetloc, nextLocation, netloc, location]
      exact goes.1 elsewhere
    · rename_i here
      exact self fun _ _ => goes.2 here

/-- Straight code that is followed by nothing. -/
theorem holds_alone
    {straight : Straight}
    {invariant : World → Prop}
    {fault : Fault → Prop}
    (post : straight.Post invariant invariant fault) :
    (straight.before fun next => .next next []).Holds invariant fault :=
  post.before fun _ holds => holds

theorem GoesInPlace.same
    {w next : World}
    {c r : Nat}
    (goes : w.GoesInPlace c r)
    (config : next.config = w.config)
    {method : Method}
    {body : Data}
    (fields :
      (next.requests r).toRequestFields =
        { (w.requests r).toRequestFields with method := method, body := body })
    (client : (next.clients c).netloc = (w.clients c).netloc) :
    next.GoesInPlace c r := by
  have netloc : next.netloc r = w.netloc r := by
    simp only [World.netloc, config, fields]
    rfl
  have location : next.location r = w.location r := by
    simp only [World.location, config, fields]
    rfl
  unfold GoesInPlace Elsewhere at goes ⊢
  rw [netloc, location, client]
  exact goes

theorem redirected_keys
    {w : World}
    {c : Nat}
    (keys : Keys w)
    (follows : FollowsInPlace w c) :
    (w.redirected c).Holds Keys FindsClient := by
  unfold redirected
  dsimp only
  split
  · exact keys.quiet (Quiet.setClient w c _ (Or.inl rfl) rfl rfl)
  · rename_i notCanceled
    have left :
        Quiet w (w.setClient c { w.clients c with inRedirect := false }) :=
      Quiet.setClient w c _ (Or.inl rfl) rfl rfl
    split
    · exact ⟨by decide, by decide⟩
    · exact ⟨by decide, by decide⟩
    · rename_i r response active _
      have stillActive :
          ((w.setClient c
            { w.clients c with inRedirect := false }).clients c).request =
            some r := by
        simpa [setClient] using active
      have goes :
          ∀ (next : World) (method : Method) (body : Data),
            next.config = w.config →
            next.clients =
              (w.setClient c { w.clients c with inRedirect := false }).clients →
            (next.requests r).toRequestFields =
              { (w.requests r).toRequestFields with
                method := method, body := body } →
            (next.clients c).pool = none ∨ next.GoesInPlace c r := by
        intro next method body config clients fields
        rcases follows.resolve_left notCanceled with alone | follows
        · left
          simpa [clients, setClient] using alone
        · right
          refine (follows r active).same config fields ?_
          simp [clients, setClient]
      split
      · have rewritten := (keys.quiet left).rewrites stillActive
          { (w.setClient c
              { w.clients c with inRedirect := false }).requests r with
            method := .get, body := [] } rfl
        refine holds_alone (followRedirect_keys response
          ((keys.quiet left).quiet rewritten) stillActive
          (goes _ .get [] rfl rfl ?_))
        simp [setRequest, setClient]
      · exact holds_alone (followRedirect_keys response (keys.quiet left)
          stillActive (goes _ _ _ rfl rfl rfl))

theorem redirectCatch_keys
    {w : World}
    (c : Nat)
    (keys : Keys w) :
    (w.redirectCatch c).Holds Keys FindsClient :=
  holds_andFrames (cancel_keys c _
    (keys.quiet (Quiet.setClient w c _ (Or.inl rfl) rfl rfl)))

/-! ## Receiving -/

theorem receivePart_keys
    {w : World}
    (c : Nat)
    (response : Response)
    (keys : Keys w) :
    (w.receivePart c response).Holds Keys FindsClient := by
  unfold receivePart
  split
  · exact keys
  · split
    · exact ⟨by decide, by decide⟩
    · split <;> exact keys

theorem onReadLoop_keys
    {w : World}
    (c buffer : Nat)
    (buf : List Parsed)
    (keys : Keys w) :
    (w.onReadLoop c buffer buf).Holds Keys FindsClient := by
  cases buf with
  | nil =>
      exact keys
  | cons result rest =>
      simp only [onReadLoop]
      split
      · exact keys.quiet (Quiet.reset w c)
      · rename_i context _
        have parsed : Keys (w.parseShift c buffer context result) := by
          refine keys.quiet (Quiet.trans ?_ (Quiet.emit _ _))
          exact Quiet.setClient w c _ (Or.inl rfl) rfl rfl
        cases result with
        | error error _ =>
            exact cancel_keys c _ parsed
        | headers =>
            exact parsed
        | body _ =>
            exact receivePart_keys c _ parsed
        | done _ =>
            exact holds_andFrames (analyzeRequest_keys c parsed)

theorem onEof_keys
    {w : World}
    (c : Nat)
    (error : Option ErrorCode)
    (response : Response)
    (keys : Keys w) :
    (w.onEof c error response).Holds Keys FindsClient := by
  unfold onEof
  dsimp only
  split
  · exact keys.quiet (Quiet.reset w c)
  · exact ⟨by decide, by decide⟩
  · have ended := keys.quiet (Quiet.setClient w c
      { w.clients c with
        response := some { response with isDone := true }, parsing := none }
      (Or.inl rfl) rfl rfl)
    split
    · exact cancel_keys c _ ended
    · exact analyzeRequest_keys c ended

theorem formFileComplete_keys
    {w : World}
    (c : Nat)
    (error : Option ErrorCode)
    (keys : Keys w) :
    (w.formFileComplete c error).Holds Keys FindsClient := by
  unfold formFileComplete
  split
  · exact finishRequest_keys c _ keys
  · refine holds_alone ?_
    have counted := Quiet.setClient w c
      { w.clients c with formField := (w.clients c).formField + 1 }
      (Or.inl rfl) rfl rfl
    generalize w.setClient c
      { w.clients c with formField := (w.clients c).formField + 1 } = next
      at counted
    cases active : (next.clients c).request with
    | none =>
        simp only [sendForm, active]
        exact ⟨by decide, by decide⟩
    | some r =>
        refine (sendForm_post next c r active).imp ?_ (fun _ => False.elim) ?_
        · exact fun _ sends =>
            (keys.quiet counted).quiet (Quiet.of_sends sends)
        · rintro reason rfl
          exact ⟨by decide, by decide⟩

/-! ## Queued requests and idle clients -/

theorem cancelRequest_keys
    {w : World}
    (p r : Nat)
    (error : Option ErrorCode)
    (keys : Keys w) :
    (w.cancelRequest p r error).Holds Keys FindsClient := by
  unfold cancelRequest
  dsimp only
  split
  · exact ⟨by decide, by decide⟩
  · rename_i entry present
    split
    · exact ⟨by decide, by decide⟩
    · rename_i place found
      refine holds_andFrames (finishAndNotify_keys none error keys ?_)
      intro active
      have member := List.mem_of_find?_eq_some found
      have isRequest : place.req = r := by
        simpa using List.find?_some found
      exact keys.apart r active
        ⟨p, _, entry, present, List.mem_map.mpr ⟨place, member, isRequest⟩⟩

theorem cancelReturn_keys
    {w : World}
    (p : Nat)
    (key : NetLoc)
    (ticket generation : Nat)
    (keys : Keys w) :
    (w.cancelReturn p key ticket generation).Holds Keys FindsClient := by
  unfold cancelReturn
  split
  · exact ⟨by decide, by decide⟩
  · rename_i entry present
    dsimp only
    split
    · refine keys.regroups (Regroups.setEntry present (fun _ => id) id
        (fun _ => Or.inl) (fun _ busy _ => busy) ?_ keys)
      exact List.eraseIdx_sublist _ _
    · exact ⟨by decide, by decide⟩

/-- A list that `check_inactivity` keeps has lost free clients at most. -/
theorem checkInactivity_from
    {w : World}
    {p pool : Nat}
    {key : NetLoc}
    {entry : NetLocList}
    (member : entry ∈ ((w.checkInactivity p).pools pool).clients key) :
    ∃ old ∈ (w.pools pool).clients key,
      ∃ free,
        entry = { old with free := free } ∧
          free.Sublist old.free ∧
          (old.free ≠ [] ∨ old.busy ≠ [] → free ≠ [] ∨ old.busy ≠ []) := by
  by_cases same : pool = p
  · subst pool
    simp only [checkInactivity, Function.update_self, Option.mem_def,
      Option.bind_eq_some_iff] at member
    obtain ⟨old, oldMember, isSwept⟩ := member
    simp only [sweep] at isSwept
    split at isSwept
    · cases isSwept
    · rename_i alive
      cases isSwept
      refine ⟨old, oldMember, _, rfl, List.filter_sublist, fun _ => ?_⟩
      exact Decidable.not_and_iff_or_not.mp alive
  · simp only [checkInactivity, ne_eq, same, not_false_eq_true,
      Function.update_of_ne] at member
    exact ⟨entry, member, entry.free, rfl, List.Sublist.refl _, id⟩

/-- `check_inactivity` keeps every list with a busy client. -/
theorem checkInactivity_kept
    {w : World}
    {pool : Nat}
    {key : NetLoc}
    {old : NetLocList}
    (p : Nat)
    (member : old ∈ (w.pools pool).clients key)
    (busy : old.busy ≠ []) :
    ∃ entry ∈ ((w.checkInactivity p).pools pool).clients key,
      ∃ free, entry = { old with free := free } := by
  by_cases same : pool = p
  · subst pool
    simp only [Option.mem_def] at member
    simp only [checkInactivity, Function.update_self, Option.mem_def, member,
      sweep, busy, and_false, ↓reduceIte, Option.bind_some]
    exact ⟨_, rfl, _, rfl⟩
  · refine ⟨old, ?_, old.free, rfl⟩
    simpa [checkInactivity, same] using member

theorem checkInactivity_keys
    {w : World}
    (p : Nat)
    (keys : Keys w) :
    Keys (w.checkInactivity p) := by
  refine keys.regroups
    { config := rfl, clients := rfl, requests := rfl, nextClient := rfl
      member := ?_, freeOnce := ?_, free := ?_, busy := ?_, waits := ?_
      queueOnce := ?_ }
  · rintro pool key c (⟨entry, member, isFree⟩ | ⟨entry, member, isBusy⟩)
    · obtain ⟨old, oldMember, free, rfl, fewer, _⟩ := checkInactivity_from member
      exact Or.inl ⟨old, oldMember, fewer.subset isFree⟩
    · obtain ⟨old, oldMember, _, rfl, _⟩ := checkInactivity_from member
      exact Or.inr ⟨old, oldMember, isBusy⟩
  · intro pool key entry member
    obtain ⟨old, oldMember, _, rfl, fewer, _⟩ := checkInactivity_from member
    exact (keys.freeOnce pool key old oldMember).sublist fewer
  · rintro pool key c ⟨entry, member, isFree⟩
    obtain ⟨old, oldMember, _, rfl, fewer, _⟩ := checkInactivity_from member
    exact keys.free pool key c ⟨old, oldMember, fewer.subset isFree⟩
  · rintro c pool _ ⟨old, member, isBusy⟩
    obtain ⟨entry, entryMember, _, rfl⟩ :=
      checkInactivity_kept p member (List.ne_nil_of_mem isBusy)
    exact ⟨_, entryMember, isBusy⟩
  · rintro pool key r ⟨entry, member, inQueue⟩
    obtain ⟨old, oldMember, _, rfl, _⟩ := checkInactivity_from member
    exact ⟨old, oldMember, inQueue⟩
  · intro pool key entry member
    obtain ⟨old, oldMember, _, rfl, _⟩ := checkInactivity_from member
    exact keys.queueOnce pool key old oldMember

/-! ## The calls of the application and the user agent -/

theorem requestSend_keys
    {w : World}
    (r : Nat)
    {send : Nat → Step}
    (keys : Keys w)
    (sends : ∀ c, (send c).Holds Keys FindsClient) :
    (w.requestSend r send).Holds Keys FindsClient := by
  unfold requestSend
  dsimp only
  split
  · exact keys.quiet (Quiet.emit w _)
  · split
    · exact keys.quiet (Quiet.emit w _)
    · split
      · exact sends _
      · exact ⟨by decide, by decide⟩

theorem inject_loose
    {w : World}
    (a r : Nat)
    (contextUri : Uri)
    (topLevel : Bool)
    (time : Nat)
    (same :
      w.Waiting r →
      (w.inject a r contextUri topLevel time).location r = w.location r) :
    Quiet w (w.inject a r contextUri topLevel time) := by
  unfold inject at same ⊢
  refine Quiet.trans ?_ (Quiet.emit _ _)
  refine Quiet.setRequest w r _ (fun _ => rfl) ?_
  intro waiting
  simpa [World.location, emit, World.setRequest] using same waiting

theorem collect_quiet (w : World) (a : Nat) (cookies : Cookies) (uri : Uri) :
    Quiet w (w.collect a cookies uri) :=
  ⟨fun _ => rfl, rfl, fun _ => Or.inl rfl, fun _ => rfl, fun _ => rfl,
    fun _ _ _ => rfl, fun _ _ => rfl⟩

/--
No request in flight changes its location: a request has its scheme before it is
given to a pool, a waiting one is left alone and not submitted again, a pool's
client is given requests by its pool only, and a redirect that stays on a client
leads to the location of that client.
-/
def KeepsLocations (config : Config) (label : Label) : Prop :=
  let w := config.state
  match label with
  | .tick =>
      match config.stack with
      | .redirected c :: _ => w.FollowsInPlace c
      | .agentRedirect a contextUri topLevel c context :: _ =>
          ∀ response r,
            (w.clients c).response = some response →
            (w.clients c).request = some r →
            w.Waiting r →
            ((w.collect a response.cookies context.uri).inject a r contextUri
              topLevel (w.agentNow a)).location r = w.location r
      | _ => True
  | .input (.edit r fields) =>
      w.Waiting r → w.config.netloc fields.withScheme = w.location r
  | .input (.clientRequest c r) =>
      (w.clients c).pool = none ∧ ¬ w.Waiting r
  | .input (.poolRequest _ r) =>
      w.Loose r ∧ w.netloc r = w.location r
  | .input (.agentRequest a r contextUri topLevel) =>
      let injected := w.inject a r contextUri topLevel (w.agentNow a)
      w.Loose r ∧ injected.netloc r = injected.location r
  | _ => True

theorem code_keys
    {w : World}
    {frame : Frame}
    {rest : List Frame}
    (keys : Keys w)
    (permitted : KeepsLocations ⟨w, frame :: rest, none⟩ .tick) :
    (code frame w).Holds Keys FindsClient := by
  cases frame with
  | callback callback =>
      exact keys
  | fire callback =>
      exact keys.quiet (Quiet.emit w _)
  | agentResponse a r response error =>
      change Keys (w.agentResponse a r response error)
      unfold agentResponse
      split
      · exact keys
      · exact keys.quiet (collect_quiet w _ _ _)
  | agentRedirect a contextUri topLevel c context =>
      obtain ⟨reason, isReason, faults⟩ | ⟨response, r, answered, active, acts⟩ :=
        code_agentRedirect w a contextUri topLevel c context
      · rw [faults]
        obtain rfl | rfl := isReason
        · exact ⟨by decide, by decide⟩
        · exact ⟨by decide, by decide⟩
      · rw [acts]
        have collected := collect_quiet w a response.cookies context.uri
        refine (keys.quiet collected).quiet (inject_loose _ _ _ _ _ ?_)
        intro waiting
        have waited := (collected.waiting r).mp waiting
        exact (permitted response r answered active waited).trans
          (collected.location r waited).symm
  | onRead c buffer buf =>
      exact onReadLoop_keys c buffer buf keys
  | continued c =>
      exact keys.quiet (Quiet.setClient w c _ (Or.inl rfl) rfl rfl)
  | redirected c =>
      exact redirected_keys keys permitted
  | redirectCatch c =>
      exact redirectCatch_keys c keys
  | rethrow =>
      exact keys
  | cancelReturn p key ticket generation =>
      exact cancelReturn_keys p key ticket generation keys

/-- A submission is recorded when it has been accepted. -/
theorem acceptedOn_keys
    {straight : Straight}
    (pool : Option Nat)
    (loop r : Nat)
    (post : straight.Post Keys Keys FindsClient) :
    (straight.before (acceptedOn pool loop r)).Holds Keys FindsClient :=
  post.before fun w keys => keys.quiet (Quiet.emit w _)

theorem clientRequest_keys
    {w : World}
    {c r : Nat}
    (keys : Keys w)
    (known : c < w.nextClient)
    (alone : (w.clients c).pool = none)
    (notWaiting : ¬ w.Waiting r) :
    (w.clientRequest c r).Post Keys Keys FindsClient := by
  refine (clientRequest_post w c r).imp ?_ ?_ ?_
  · intro next started
    refine keys.started started notWaiting known ?_
    intro p inPool
    rw [alone] at inPool
    cases inPool
  · exact fun next refused => keys.quiet (Quiet.of_refused keys refused)
  · rintro reason rfl
    exact ⟨by decide, by decide⟩

theorem agentRequest_keys
    {w : World}
    {a r : Nat}
    {contextUri : Uri}
    {topLevel : Bool}
    (keys : Keys w)
    (loose : Loose w r)
    (steady :
      (w.inject a r contextUri topLevel (w.agentNow a)).netloc r =
        (w.inject a r contextUri topLevel (w.agentNow a)).location r) :
    (w.agentRequest a r contextUri topLevel).Post Keys Keys FindsClient := by
  unfold agentRequest
  dsimp only
  generalize listened :
    w.setRequest r
      { w.requests r with
        responseListeners :=
          (w.requests r).responseListeners ++
            [Listener.agent a contextUri topLevel]
        redirectListeners :=
          (w.requests r).redirectListeners ++
            [Listener.agent a contextUri topLevel] } = next
  have listens : Quiet w next := by
    subst listened
    exact Quiet.setLibrary w r _ rfl rfl
  split
  · exact ⟨by decide, by decide⟩
  · have injects : Quiet next
        (next.inject a r contextUri topLevel (next.agentNow a)) :=
      inject_loose a r contextUri topLevel _ fun waiting =>
        ((loose.quiet listens).2 waiting).elim
    refine poolRequest_keys ((keys.quiet listens).quiet injects)
      ((loose.quiet listens).quiet injects) ?_
    subst listened
    simpa [inject, agentNow, World.netloc, World.location, emit, setRequest,
      Request.target] using steady

theorem fireTimer_keys
    {w : World}
    (r : Nat)
    (timer : Timer)
    (keys : Keys w) :
    (w.fireTimer r timer).Holds Keys FindsClient := by
  have fired :
      Keys
        (w.setRequest r
          { w.requests r with
            timer := some { timer with deadline := none } }) :=
    keys.quiet (Quiet.setLibrary w r _ rfl rfl)
  unfold fireTimer
  dsimp only
  split
  · unfold onTimer
    dsimp only
    split
    · exact timedOut_keys _ fired
    · exact cancelRequest_keys _ r _ fired
    · exact fired
  · exact fired

theorem accept_keys
    {w : World}
    {input : Input}
    {stack : List Frame}
    {outcome : Step}
    (keys : Keys w)
    (permitted : KeepsLocations ⟨w, stack, none⟩ (.input input))
    (accepted : accept input stack.head? w = some outcome) :
    outcome.Holds Keys FindsClient := by
  generalize stack.head? = top at accepted
  cases input with
  | edit r fields =>
      simp only [accept] at accepted
      split at accepted <;> cases accepted
      refine keys.quiet (Quiet.setRequest w r _ (fun _ => rfl) ?_)
      exact permitted
  | listen r =>
      cases top <;> simp only [accept, reduceCtorEq] at accepted
      cases accepted
      exact keys.quiet (Quiet.setRequest w r _ (fun _ => rfl) fun _ => rfl)
  | newClient loop =>
      cases accepted
      exact keys.newClient loop none
  | clientRequest c r =>
      simp only [accept] at accepted
      split at accepted <;> cases accepted
      rename_i known
      exact acceptedOn_keys _ _ r
        (clientRequest_keys keys known permitted.1 permitted.2)
  | poolRequest p r =>
      cases accepted
      exact acceptedOn_keys _ _ r (poolRequest_keys keys permitted.1 permitted.2)
  | agentRequest a r contextUri topLevel =>
      cases accepted
      exact acceptedOn_keys _ _ r
        (agentRequest_keys keys permitted.1 permitted.2)
  | cancel r error =>
      cases accepted
      unfold requestCancel
      dsimp only
      split
      · exact cancel_keys _ error keys
      · exact cancelRequest_keys _ r error keys
      · exact keys
  | clientCancel c error =>
      cases accepted
      exact cancel_keys c error keys
  | sendChunk r data =>
      cases accepted
      refine requestSend_keys r keys fun c => ?_
      split
      · exact keys
      · exact keys.quiet (Quiet.write w c _)
  | sendFinalChunk r data =>
      cases accepted
      refine requestSend_keys r keys fun c => ?_
      refine keys.quiet (Quiet.trans ?_ (Quiet.write _ c _))
      exact Quiet.setLibrary w r _ rfl rfl
  | maxConnections p value =>
      cases accepted
      refine keys.quiet
        { entries := ?_, nextClient := rfl, request := fun _ => Or.inl rfl
          pool := fun _ => rfl, netloc := fun _ => rfl
          linked := fun _ _ _ => rfl, location := fun _ _ => rfl }
      intro pool
      by_cases same : pool = p <;> simp [same]
  | advance loop milliseconds =>
      cases top <;> simp only [accept, reduceCtorEq] at accepted
      cases accepted
      exact keys.quiet
        ⟨fun _ => rfl, rfl, fun _ => Or.inl rfl, fun _ => rfl, fun _ => rfl,
          fun _ _ _ => rfl, fun _ _ => rfl⟩
  | onConnect c error =>
      cases top <;> simp only [accept, reduceCtorEq] at accepted
      split at accepted
      · cases error with
        | none =>
            cases accepted
            exact keys.quiet (Quiet.setTcp w c _)
        | some error =>
            cases accepted
            exact cancel_keys c _ (keys.quiet (Quiet.setTcp w c _))
      · cases accepted
  | onWrite c error =>
      cases top <;> simp only [accept, reduceCtorEq] at accepted
      split at accepted
      · cases error with
        | none =>
            cases accepted
            exact keys.quiet (Quiet.setTcp w c _)
        | some error =>
            cases accepted
            exact cancel_keys c _ (keys.quiet (Quiet.setTcp w c _))
      · cases accepted
  | onRead c buf =>
      cases top <;> simp only [accept, reduceCtorEq] at accepted
      split at accepted
      · cases accepted
        exact keys.quiet
          ⟨fun _ => rfl, rfl, fun _ => Or.inl rfl, fun _ => rfl, fun _ => rfl,
            fun _ _ _ => rfl, fun _ _ => rfl⟩
      · cases accepted
  | onReadError c error =>
      cases top <;> simp only [accept, reduceCtorEq] at accepted
      split at accepted <;> cases accepted
      exact cancel_keys c _ keys
  | onEof c error response =>
      cases top <;> simp only [accept, reduceCtorEq] at accepted
      split at accepted <;> cases accepted
      exact onEof_keys c error response
        (keys.quiet ((Quiet.setTcp w c _).trans (Quiet.emit _ _)))
  | onTimer r =>
      cases top <;> simp only [accept, reduceCtorEq] at accepted
      split at accepted
      · cases accepted
      · split at accepted
        · cases accepted
        · split at accepted <;> cases accepted
          exact fireTimer_keys r _ keys
  | streamData r item data =>
      cases top <;> simp only [accept, reduceCtorEq] at accepted
      split at accepted <;> cases accepted
      exact keys.quiet (Quiet.write w _ _)
  | streamFinish r item error =>
      cases top <;> simp only [accept, reduceCtorEq] at accepted
      split at accepted <;> cases accepted
      exact formFileComplete_keys _ error
        (keys.quiet (Quiet.setLibrary w r _ rfl rfl))
  | checkInactivity p =>
      cases top <;> simp only [accept, reduceCtorEq] at accepted
      split at accepted <;> cases accepted
      exact checkInactivity_keys p keys

theorem maintains_keys :
    machine.Maintains KeepsLocations Keys FindsClient where
  tick _ _ _ _ permitted keys := code_keys keys permitted
  input _ _ _ _ _ permitted keys accepted :=
    accept_keys keys permitted accepted

/-- Nobody has a request before the first one. -/
theorem keys_of_fresh {w : World} (fresh : Fresh w) : Keys w := by
  have noEntry :
      ∀ p key entry, ¬ entry ∈ (w.pools p).clients key := by
    simp [fresh.pools]
  have idle : ∀ c r, (w.clients c).request ≠ some r := by
    simp [fresh.clients]
  exact
    { member := by
        rintro p key c (⟨entry, member, _⟩ | ⟨entry, member, _⟩) <;>
          exact (noEntry p key entry member).elim
      home := by
        rintro p key other c (⟨entry, member, _⟩ | ⟨entry, member, _⟩) <;>
          exact (noEntry p key entry member).elim
      freeOnce := fun p key entry member => (noEntry p key entry member).elim
      free := fun p key c ⟨entry, member, _⟩ =>
        (noEntry p key entry member).elim
      active := fun c r p active => (idle c r active).elim
      known := fun c r active => (idle c r active).elim
      linked := fun c r active => (idle c r active).elim
      key := fun p key r ⟨entry, member, _⟩ =>
        (noEntry p key entry member).elim
      apart := fun r ⟨c, active⟩ => (idle c r active).elim
      queueOnce := fun p key entry member => (noEntry p key entry member).elim
      queueHome := fun p other key r ⟨entry, member, _⟩ =>
        (noEntry p key entry member).elim }

/--
In every run in which no request in flight changes its location, clients with a
request are busy under their own location, and `putback` finds them there.
-/
theorem keptInPlace_of_keepsLocations
    (w : World)
    (labels : List Label)
    (final : Config)
    (fresh : Fresh w)
    (keeps : machine.Guarded KeepsLocations (start w) labels)
    (ran : run? w labels = some final) :
    KeptInPlace final := by
  obtain ⟨keys, found⟩ :=
    maintains_keys.run (keys_of_fresh fresh) rfl keeps ran
  exact ⟨keys.inPlace, fun fault => (found _ fault).1 rfl,
    fun fault => (found _ fault).2 rfl⟩

theorem fresh_initial (config : WorldConfig) : Fresh (initial config) :=
  ⟨fun _ => rfl, fun _ => rfl, fun _ _ => rfl, fun _ => rfl, rfl, rfl⟩

/-- A request with a scheme is redirected to another host through the pool. -/
def redirectedElsewhere : List Label :=
  [.input (.edit 0 { uri := some { scheme := "http", host := "here" } }),
    .input (.poolRequest 0 0),
    .input (.onConnect 0 none),
    .input (.onRead 0
      [.done
        { code := 302
          location := some { scheme := "http", host := "there" } }]),
    .tick, .tick, .ret, .tick, .tick]

theorem keptInPlace_redirectedElsewhere :
    ∃ final,
      run? (initial {}) redirectedElsewhere = some final ∧
        KeptInPlace final := by
  have ran : run? (initial {}) redirectedElsewhere = some _ := rfl
  have noWaiting :
      ∀ w : World, (∀ p key, (w.pools p).clients key = none) →
        ∀ r, ¬ w.Waiting r := by
    rintro w absent r ⟨p, key, entry, member, _⟩
    simp [absent] at member
  refine ⟨_, ran, keptInPlace_of_keepsLocations _ _ _
    (fresh_initial {}) ?_ ran⟩
  refine .cons ?_ rfl (.cons ⟨⟨?_, ?_⟩, rfl⟩ rfl (.cons trivial rfl
    (.cons trivial rfl (.cons trivial rfl (.cons trivial rfl
      (.cons trivial rfl (.cons ?_ rfl (.cons trivial rfl trivial))))))))
  · exact fun waiting => (noWaiting _ (fun _ _ => rfl) 0 waiting).elim
  · rintro ⟨c, active⟩
    cases active
  · exact noWaiting _ (fun _ _ => rfl) 0
  · refine Or.inr (Or.inr ?_)
    intro r active
    cases active
    exact ⟨fun _ => rfl, fun here => (here (by decide)).elim⟩

/-- A request whose uri has no scheme is answered. -/
def answeredWithoutScheme : List Label :=
  [.input (.edit 0 { uri := some { host := "here" } }),
    .input (.poolRequest 0 0),
    .input (.onConnect 0 none),
    .input (.onRead 0 [.done { code := 200 }]),
    .tick]

/-- The key was computed without the port of the scheme, so it is not found. -/
theorem answeredWithoutScheme_not_keptInPlace :
    ∃ final,
      run? (initial {}) answeredWithoutScheme = some final ∧
        final.fault = some .putbackNoEntry ∧ ¬ KeptInPlace final :=
  ⟨_, rfl, rfl, fun kept => kept.entryFound rfl⟩

end UniEventHttp.ClientSide.World
