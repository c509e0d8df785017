import UniEventHttp.ClientKeys

namespace UniEventHttp.ClientSide.World

/-!
# Capacity and work conservation of a pool

As long as no step throws, a pool holds no more clients for a location than it
may, every busy client has a request, and no request waits while a client is
idle.  `check_inactivity` looks at free and busy clients only, and this is why it
never erases a queue.
-/

/-! ## The property -/

/-- The pool of the submission of a request that has not ended, if there is one. -/
def submission (r : Nat) (trace : List Event) : Option (Option Nat) :=
  ongoing (fun pool _ _ _ => pool) r trace

/-- The request waits in the pool, or a client of the pool has it. -/
def Held (w : World) (p r : Nat) : Prop :=
  (∃ key, w.Waits p key r) ∨
    ∃ c, (w.clients c).request = some r ∧ (w.clients c).pool = some p

/-- The request is in exactly one queue once, and no client has it. -/
def QueuedOnce (w : World) (p r : Nat) : Prop :=
  ¬ w.Active r ∧
    ∃ key, ∃ entry ∈ (w.pools p).clients key,
      (entry.queue.map Place.req).count r = 1 ∧
        ∀ pool other, w.Waits pool other r → pool = p ∧ other = key

/-- The request is in no queue, and exactly one client has it, which is busy. -/
def ActiveOnce (w : World) (p r : Nat) : Prop :=
  ¬ w.Waiting r ∧
    ∃ c,
      (w.clients c).request = some r ∧
        w.Busy p (w.clients c).netloc c ∧
        ∀ other, (w.clients other).request = some r → other = c

/-- What holds of every list of a pool with a limit. -/
structure Fits (limit : Nat) (entry : NetLocList) : Prop where
  freeOnce : entry.free.Nodup
  busyOnce : entry.busy.Nodup
  disjoint : ∀ c ∈ entry.free, c ∉ entry.busy
  bound : entry.free.length + entry.busy.length ≤ max 1 limit
  saturated :
    entry.queue ≠ [] → entry.free = [] ∧ max 1 limit ≤ entry.busy.length

/-- Capacity and work conservation. -/
structure Capacity (w : World) : Prop where
  fits :
    ∀ p key, ∀ entry ∈ (w.pools p).clients key,
      Fits (w.pools p).maxConnections entry
  runs : ∀ p key c, w.Busy p key c → (w.clients c).request.isSome
  /-- `check_inactivity` keeps every list with a queue. -/
  swept :
    ∀ p key, ∀ entry ∈ (w.pools p).clients key,
      entry.queue ≠ [] →
      ((w.checkInactivity p).pools p).clients key ≠ none
  placed :
    ∀ r p,
      submission r w.trace = some (some p) →
      w.QueuedOnce p r ∨ w.ActiveOnce p r

/-! ## One list -/

/-- What holds of a list, whose clients may be idle. -/
structure Sized (limit : Nat) (entry : NetLocList) : Prop where
  busyOnce : entry.busy.Nodup
  alive : entry.free ≠ [] ∨ entry.busy ≠ []
  bound : entry.free.length + entry.busy.length ≤ max 1 limit
  saturated :
    entry.queue ≠ [] → entry.free = [] ∧ max 1 limit ≤ entry.busy.length
  ticketOnce : (entry.queue.map Place.ticket).Nodup
  issued : ∀ place ∈ entry.queue, place.ticket < entry.nextTicket

namespace Sized

variable {limit c : Nat} {entry : NetLocList}

/-- The first request leaves the queue. -/
theorem pops
    {place : Place}
    {rest : List Place}
    (sized : Sized limit entry)
    (queue : entry.queue = place :: rest) :
    Sized limit { entry with queue := rest } where
  busyOnce := sized.busyOnce
  alive := sized.alive
  bound := sized.bound
  saturated _ := sized.saturated (by simp [queue])
  ticketOnce := by
    have once := sized.ticketOnce
    rw [queue, List.map_cons, List.nodup_cons] at once
    exact once.2
  issued other member :=
    sized.issued other (by rw [queue]; exact List.mem_cons_of_mem _ member)

/-- A busy client becomes free when nothing waits. -/
theorem frees
    (sized : Sized limit entry)
    (busy : c ∈ entry.busy)
    (notFree : c ∉ entry.free)
    (queue : entry.queue = []) :
    Sized limit
      { entry with
        free := entry.free.insert c, busy := entry.busy.erase c } where
  busyOnce := sized.busyOnce.erase c
  alive := Or.inl (List.ne_nil_of_mem List.mem_insert_self)
  bound := by
    have inserted : (entry.free.insert c).length = entry.free.length + 1 :=
      List.length_insert_of_not_mem notFree
    have erased := List.length_erase_of_mem busy
    have nonEmpty := List.length_pos_of_mem busy
    have before := sized.bound
    simp only [inserted, erased]
    omega
  saturated waits := (waits queue).elim
  ticketOnce := sized.ticketOnce
  issued := sized.issued

/-- A free client becomes busy. -/
theorem takes
    (sized : Sized limit entry)
    (free : c ∈ entry.free)
    (notBusy : c ∉ entry.busy) :
    Sized limit
      { entry with
        free := entry.free.erase c, busy := entry.busy.insert c } where
  busyOnce := sized.busyOnce.insert
  alive := Or.inr (List.ne_nil_of_mem List.mem_insert_self)
  bound := by
    have inserted : (entry.busy.insert c).length = entry.busy.length + 1 :=
      List.length_insert_of_not_mem notBusy
    have erased := List.length_erase_of_mem free
    have nonEmpty := List.length_pos_of_mem free
    have before := sized.bound
    simp only [inserted, erased]
    omega
  saturated waits := by
    have noneFree := (sized.saturated waits).1
    rw [noneFree] at free
    cases free
  ticketOnce := sized.ticketOnce
  issued := sized.issued

/-- A new client becomes busy while there are less than the limit. -/
theorem grows
    (sized : Sized limit entry)
    (notBusy : c ∉ entry.busy)
    (noneFree : entry.free = [])
    (below : entry.busy.length < limit) :
    Sized limit { entry with busy := entry.busy.insert c } where
  busyOnce := sized.busyOnce.insert
  alive := Or.inr (List.ne_nil_of_mem List.mem_insert_self)
  bound := by
    have inserted : (entry.busy.insert c).length = entry.busy.length + 1 :=
      List.length_insert_of_not_mem notBusy
    simp only [inserted, noneFree, List.length_nil]
    omega
  saturated waits := by
    have full := (sized.saturated waits).2
    omega
  ticketOnce := sized.ticketOnce
  issued := sized.issued

/-- The first client of a location. -/
theorem first (limit c : Nat) :
    Sized limit { ({} : NetLocList) with busy := List.insert c [] } where
  busyOnce := by simp [List.insert]
  alive := Or.inr (by simp [List.insert])
  bound := by simp [List.insert]
  saturated waits := (waits rfl).elim
  ticketOnce := List.nodup_nil
  issued := by simp

/-- A request joins the queue when all clients are busy and no more may be made. -/
theorem enqueues
    {r generation : Nat}
    (sized : Sized limit entry)
    (noneFree : entry.free = [])
    (full : limit ≤ entry.busy.length) :
    Sized limit
      { entry with
        queue := entry.queue ++ [⟨entry.nextTicket, r⟩]
        generation := generation
        nextTicket := entry.nextTicket + 1 } where
  busyOnce := sized.busyOnce
  alive := sized.alive
  bound := sized.bound
  saturated _ := by
    have someBusy := sized.alive.resolve_left (by simp [noneFree])
    have positive := List.length_pos_of_ne_nil someBusy
    exact ⟨noneFree, by simp only; omega⟩
  ticketOnce := by
    rw [List.map_append, List.nodup_append]
    refine ⟨sized.ticketOnce, by simp, ?_⟩
    intro ticket old new isNew same
    obtain ⟨place, member, rfl⟩ := List.mem_map.mp old
    have before := sized.issued place member
    simp only [List.map_cons, List.map_nil, List.mem_singleton] at isNew
    omega
  issued place member := by
    rcases List.mem_append.mp member with old | isNew
    · exact Nat.lt_succ_of_lt (sized.issued place old)
    · rw [List.mem_singleton] at isNew
      subst isNew
      exact Nat.lt_succ_self _

/-- Requests leave the queue and clients leave the free ones. -/
theorem shrinks
    {free : List Nat}
    {queue : List Place}
    {generation : Nat}
    (sized : Sized limit entry)
    (fewerFree : free.Sublist entry.free)
    (fewerWait : queue.Sublist entry.queue)
    (alive : free ≠ [] ∨ entry.busy ≠ []) :
    Sized limit
      { entry with free := free, queue := queue, generation := generation } where
  busyOnce := sized.busyOnce
  alive := alive
  bound := by
    have before := sized.bound
    have fewer := fewerFree.length_le
    simp only
    omega
  saturated waits := by
    have waited : entry.queue ≠ [] := by
      intro empty
      rw [empty] at fewerWait
      exact waits (List.sublist_nil.mp fewerWait)
    obtain ⟨noneFree, full⟩ := sized.saturated waited
    rw [noneFree] at fewerFree
    exact ⟨List.sublist_nil.mp fewerFree, full⟩
  ticketOnce := sized.ticketOnce.sublist (fewerWait.map Place.ticket)
  issued place member := sized.issued place (fewerWait.subset member)

end Sized

/-! ## The invariant -/

/-- Every list has its size, and every busy client but one may be idle. -/
structure Filled (w : World) (hole : Option Nat) : Prop where
  sized :
    ∀ p key, ∀ entry ∈ (w.pools p).clients key,
      Sized (w.pools p).maxConnections entry
  runs :
    ∀ p key c,
      w.Busy p key c → some c ≠ hole → (w.clients c).request.isSome

/-- Every submission to a pool that has not ended but one is held by the pool. -/
def Pending (w : World) (loose : Option Nat) : Prop :=
  ∀ r p,
    submission r w.trace = some (some p) → some r ≠ loose → w.Held p r

/-- The invariant of pools in which nothing throws. -/
structure Full (w : World) : Prop where
  keys : Keys w
  filled : Filled w none
  pending : Pending w none

/-- The lists of the first state are still there, and what they queue is newer. -/
def Lists (w next : World) : Prop :=
  ∀ p key, ∀ entry ∈ (w.pools p).clients key,
    ∃ new ∈ (next.pools p).clients key,
      entry.nextTicket ≤ new.nextTicket ∧
        ∀ place ∈ new.queue,
          place ∈ entry.queue ∨ entry.nextTicket ≤ place.ticket

theorem Lists.refl (w : World) : Lists w w :=
  fun _ _ entry member => ⟨entry, member, Nat.le_refl _, fun _ => Or.inl⟩

theorem Lists.trans
    {w next third : World}
    (one : Lists w next)
    (two : Lists next third) :
    Lists w third := by
  intro p key entry member
  obtain ⟨middle, isMiddle, ticketsOne, queueOne⟩ := one p key entry member
  obtain ⟨new, isNew, ticketsTwo, queueTwo⟩ := two p key middle isMiddle
  refine ⟨new, isNew, ticketsOne.trans ticketsTwo, ?_⟩
  intro place isPlace
  rcases queueTwo place isPlace with old | later
  · exact queueOne place old
  · exact Or.inr (ticketsOne.trans later)

theorem Lists.of_eq
    {w next : World}
    (entries : ∀ p, (next.pools p).clients = (w.pools p).clients) :
    Lists w next := by
  intro p key entry member
  exact ⟨entry, by rwa [entries], Nat.le_refl _, fun _ => Or.inl⟩

/-- No request is lost on the way to the second state. -/
structure Moves (w next : World) : Prop where
  held : ∀ p r, w.Held p r → next.Held p r
  calm : ∀ r, submission r next.trace = submission r w.trace
  lists : Lists w next

namespace Moves

variable {w next third : World}

theorem refl (w : World) : Moves w w :=
  ⟨fun _ _ => id, fun _ => rfl, Lists.refl w⟩

theorem trans
    (one : Moves w next)
    (two : Moves next third) :
    Moves w third where
  held p r was := two.held p r (one.held p r was)
  calm r := (two.calm r).trans (one.calm r)
  lists := one.lists.trans two.lists

theorem pending
    {loose : Option Nat}
    (moves : Moves w next)
    (pending : Pending w loose) :
    Pending next loose := by
  intro r p submitted notLoose
  rw [moves.calm] at submitted
  exact moves.held p r (pending r p submitted notLoose)

end Moves

/-- Changes that leave clients, requests and lists where they are. -/
structure Still (w next : World) : Prop extends Quiet w next where
  kept : ∀ c, (next.clients c).request = (w.clients c).request
  limit :
    ∀ p, (next.pools p).maxConnections = (w.pools p).maxConnections
  calm : ∀ r, submission r next.trace = submission r w.trace

theorem Still.refl (w : World) : Still w w :=
  ⟨Quiet.refl w, fun _ => rfl, fun _ => rfl, fun _ => rfl⟩

theorem Still.trans
    {w next third : World}
    (one : Still w next)
    (two : Still next third) :
    Still w third where
  toQuiet := one.toQuiet.trans two.toQuiet
  kept c := (two.kept c).trans (one.kept c)
  limit p := (two.limit p).trans (one.limit p)
  calm r := (two.calm r).trans (one.calm r)

theorem Quiet.held
    {w next : World}
    (quiet : Quiet w next)
    {p r : Nat}
    (held : w.Held p r)
    (kept :
      ∀ c,
        (w.clients c).request = some r →
        (next.clients c).request = some r) :
    next.Held p r := by
  rcases held with ⟨key, waits⟩ | ⟨c, active, inPool⟩
  · exact Or.inl ⟨key, (quiet.waits p key r).mpr waits⟩
  · exact Or.inr ⟨c, kept c active, (quiet.pool c).trans inPool⟩

theorem Still.moves
    {w next : World}
    (still : Still w next) :
    Moves w next where
  held _ _ held := still.toQuiet.held held fun c active =>
    (still.kept c).trans active
  calm := still.calm
  lists := Lists.of_eq still.toQuiet.entries

/-- A client may lose its request if it is the one that may be idle. -/
theorem Filled.quiet
    {w next : World}
    {hole before : Option Nat}
    (filled : Filled w before)
    (quiet : Quiet w next)
    (limit :
      ∀ p, (next.pools p).maxConnections = (w.pools p).maxConnections)
    (kept :
      ∀ c,
        some c ≠ hole →
        some c ≠ before ∧
          (next.clients c).request = (w.clients c).request) :
    Filled next hole where
  sized p key entry member := by
    rw [quiet.entries] at member
    rw [limit]
    exact filled.sized p key entry member
  runs p key c isBusy notHole := by
    rw [quiet.busy] at isBusy
    obtain ⟨notBefore, same⟩ := kept c notHole
    rw [same]
    exact filled.runs p key c isBusy notBefore

theorem Filled.still
    {w next : World}
    {hole : Option Nat}
    (filled : Filled w hole)
    (still : Still w next) :
    Filled next hole :=
  filled.quiet still.toQuiet still.limit fun c notHole =>
    ⟨notHole, still.kept c⟩

theorem Full.still
    {w next : World}
    (full : Full w)
    (still : Still w next) :
    Full next where
  keys := full.keys.quiet still.toQuiet
  filled := full.filled.still still
  pending := still.moves.pending full.pending

namespace Still

theorem emit
    (w : World)
    {event : Event}
    (keeps : keepsSubmissions event = true) :
    Still w (w.emit event) :=
  ⟨Quiet.emit w event, fun _ => rfl, fun _ => rfl,
    fun r => ongoing_append _ r w.trace [event] (by simpa using keeps)⟩

theorem setClient
    (w : World)
    (c : Nat)
    (client : Client)
    (request : client.request = (w.clients c).request)
    (pool : client.pool = (w.clients c).pool)
    (netloc : client.netloc = (w.clients c).netloc) :
    Still w (w.setClient c client) where
  toQuiet := Quiet.setClient w c client (Or.inl request) pool netloc
  kept d := by
    by_cases same : d = c
    · subst d
      simpa [World.setClient] using request
    · simp [World.setClient, same]
  limit _ := rfl
  calm _ := rfl

theorem setTcp (w : World) (c : Nat) (tcp : Tcp) : Still w (w.setTcp c tcp) :=
  setClient w c _ rfl rfl rfl

theorem rested (w : World) (c : Nat) : Still w (w.rested c) :=
  setClient w c _ rfl rfl rfl

theorem of_setRequest
    {w : World}
    {r : Nat}
    {request : Request}
    (quiet : Quiet w (w.setRequest r request)) :
    Still w (w.setRequest r request) :=
  ⟨quiet, fun _ => rfl, fun _ => rfl, fun _ => rfl⟩

/-- Only library members of a request change, and not its client. -/
theorem setLibrary
    (w : World)
    (r : Nat)
    (request : Request)
    (client : request.client = (w.requests r).client)
    (fields :
      request.toRequestFields = (w.requests r).toRequestFields) :
    Still w (w.setRequest r request) :=
  of_setRequest (Quiet.setLibrary w r request client fields)

theorem write (w : World) (c : Nat) (piece : Piece) :
    Still w (w.write c piece) := by
  unfold World.write
  dsimp only
  split
  · exact setTcp w c _
  · exact (setTcp w c _).trans (emit _ rfl)

theorem of_sends
    {w next : World}
    {c r : Nat}
    (sends : Sends w c r next) :
    Still w next := by
  refine ⟨Quiet.of_sends sends, ?_, ?_, ?_⟩
  · obtain ⟨field, queue, streaming, completed, pieces, rfl, _⟩ := sends
    intro d
    by_cases same : d = c <;> simp [sent, same]
  · obtain ⟨field, queue, streaming, completed, pieces, rfl, _⟩ := sends
    exact fun _ => rfl
  · obtain ⟨field, queue, streaming, completed, pieces, rfl, _⟩ := sends
    intro s
    refine ongoing_append _ s _ _ ?_
    intro event member
    simp only [wroteOn, List.mem_flatMap, List.mem_map] at member
    obtain ⟨piece, _, connection, _, rfl⟩ := member
    rfl

end Still

/-! ## Starting a request -/

theorem Started.moves
    {w next : World}
    {c r : Nat}
    (started : Started w c r next) :
    Moves w next where
  held p s held := by
    rcases held with ⟨key, entry, member, waits⟩ | ⟨d, active, inPool⟩
    · refine Or.inl ⟨key, entry, ?_, waits⟩
      rw [started.pools]
      exact member
    · have different : d ≠ c := by
        rintro rfl
        rw [started.idle] at active
        cases active
      refine Or.inr ⟨d, ?_⟩
      rw [started.clients d different]
      exact ⟨active, inPool⟩
  calm := started.ongoing _
  lists := Lists.of_eq fun p => by rw [started.pools]

theorem Filled.started
    {w next : World}
    {c r : Nat}
    (filled : Filled w (some c))
    (started : Started w c r next) :
    Filled next none where
  sized := by
    rw [started.pools]
    exact filled.sized
  runs p key d isBusy _ := by
    have wasBusy : w.Busy p key d := by
      simpa [Busy, started.pools] using isBusy
    by_cases same : d = c
    · subst d
      simp [started.active]
    · rw [started.clients d same]
      exact filled.runs p key d wasBusy (by simpa using same)

/-- The list of one location is replaced; only the given client may be idle. -/
theorem Filled.setEntry
    {w : World}
    {p : Nat}
    {key : NetLoc}
    {new : NetLocList}
    {before hole : Option Nat}
    (filled : Filled w before)
    (sized : Sized (w.pools p).maxConnections new)
    (others :
      ∀ pool other c,
        (w.setEntry p key (some new)).Busy pool other c →
        some c ≠ hole →
        w.Busy pool other c ∧ some c ≠ before) :
    Filled (w.setEntry p key (some new)) hole where
  sized pool other entry member := by
    have limit :
        ((w.setEntry p key (some new)).pools pool).maxConnections =
          (w.pools pool).maxConnections := by
      by_cases same : pool = p <;> simp [World.setEntry, same]
    rw [limit]
    rw [setEntry_clients] at member
    split at member
    · rename_i same
      obtain ⟨rfl, rfl⟩ := same
      cases member
      exact sized
    · exact filled.sized pool other entry member
  runs pool other c isBusy notHole := by
    obtain ⟨wasBusy, notBefore⟩ := others pool other c isBusy notHole
    exact filled.runs pool other c wasBusy notBefore

/-- The list of one location is replaced by one with newer tickets. -/
theorem Lists.setEntry
    {w : World}
    {p : Nat}
    {key : NetLoc}
    {new : NetLocList}
    (lasts :
      ∀ entry ∈ (w.pools p).clients key,
        entry.nextTicket ≤ new.nextTicket ∧
          ∀ place ∈ new.queue,
            place ∈ entry.queue ∨ entry.nextTicket ≤ place.ticket) :
    Lists w (w.setEntry p key (some new)) := by
  intro pool other entry member
  rw [setEntry_clients]
  split
  · rename_i same
    obtain ⟨rfl, rfl⟩ := same
    exact ⟨new, rfl, lasts entry member⟩
  · exact ⟨entry, member, Nat.le_refl _, fun _ => Or.inl⟩

/-- The list of one location is replaced, and nothing leaves its queue. -/
theorem Moves.setEntry
    {w : World}
    {p : Nat}
    {key : NetLoc}
    {new : NetLocList}
    (kept :
      ∀ entry ∈ (w.pools p).clients key,
        (∀ place ∈ entry.queue, place ∈ new.queue) ∧
          entry.nextTicket ≤ new.nextTicket ∧
          ∀ place ∈ new.queue,
            place ∈ entry.queue ∨ entry.nextTicket ≤ place.ticket) :
    Moves w (w.setEntry p key (some new)) where
  held pool s held := by
    rcases held with ⟨other, list, member, waits⟩ | active
    · refine Or.inl ⟨other, ?_⟩
      simp only [Waits, setEntry_clients]
      split
      · rename_i same
        obtain ⟨rfl, rfl⟩ := same
        obtain ⟨place, isPlace, rfl⟩ := List.mem_map.mp waits
        exact ⟨new, rfl, List.mem_map_of_mem ((kept list member).1 place isPlace)⟩
      · exact ⟨list, member, waits⟩
    · exact Or.inr active
  calm _ := rfl
  lists := Lists.setEntry fun entry member => (kept entry member).2

theorem putback_filled
    {w : World}
    {p c : Nat}
    (keys : Keys w)
    (filled : Filled w (some c))
    (detached : Detached w p c) :
    (w.putback p c).Post (fun next => Filled next none ∧ Moves w next)
      (fun _ => True) (fun _ => True) := by
  refine (putback_post w p c).imp ?_ (fun _ _ => trivial) (fun _ _ => trivial)
  intro next putsBack
  cases putsBack with
  | @starts entry place rest _ present queue started =>
      have sized := filled.sized p _ entry present
      have popped :
          Filled
            (w.setEntry p (w.clients c).netloc
              (some { entry with queue := rest })) (some c) := by
        refine filled.setEntry (sized.pops queue) ?_
        intro pool other d isBusy notHole
        refine ⟨?_, notHole⟩
        obtain ⟨list, member, inBusy⟩ := isBusy
        rw [setEntry_clients] at member
        split at member
        · rename_i same
          obtain ⟨rfl, rfl⟩ := same
          cases member
          exact ⟨entry, present, inBusy⟩
        · exact ⟨list, member, inBusy⟩
      have shorter :
          Lists w
            (w.setEntry p (w.clients c).netloc
              (some { entry with queue := rest })) := by
        refine Lists.setEntry fun list member => ?_
        rw [present] at member
        cases member
        refine ⟨Nat.le_refl _, fun other isOther => Or.inl ?_⟩
        rw [queue]
        exact List.mem_cons_of_mem _ isOther
      refine ⟨popped.started started, ?_, started.ongoing _,
        shorter.trans started.moves.lists⟩
      intro pool s held
      rcases held with ⟨key, list, member, waits⟩ | ⟨d, active, inPool⟩
      · by_cases isFirst :
            pool = p ∧ key = (w.clients c).netloc ∧ s = place.req
        · obtain ⟨rfl, _, rfl⟩ := isFirst
          refine Or.inr ⟨c, started.active, ?_⟩
          rw [started.client]
          exact detached.pool
        · have still :
              ∃ list ∈
                ((w.setEntry p (w.clients c).netloc
                  (some { entry with queue := rest })).pools pool).clients key,
                s ∈ list.queue.map Place.req := by
            simp only [setEntry_clients]
            split
            · rename_i same
              obtain ⟨rfl, rfl⟩ := same
              rw [present] at member
              cases member
              rw [queue, List.map_cons, List.mem_cons] at waits
              refine ⟨_, rfl, waits.resolve_left ?_⟩
              exact fun isPlace => isFirst ⟨rfl, rfl, isPlace⟩
            · exact ⟨list, member, waits⟩
          exact started.moves.held pool s (Or.inl ⟨key, still⟩)
      · exact started.moves.held pool s (Or.inr ⟨d, active, inPool⟩)
  | @frees entry present queue isBusy =>
      have sized := filled.sized p _ entry present
      have notFree : c ∉ entry.free := fun isFree =>
        detached.notFree _ ⟨entry, present, isFree⟩
      refine ⟨filled.setEntry (sized.frees isBusy notFree queue) ?_,
        Moves.setEntry ?_⟩
      · intro pool other d inBusy _
        obtain ⟨list, member, isIn⟩ := inBusy
        rw [setEntry_clients] at member
        split at member
        · rename_i same
          obtain ⟨rfl, rfl⟩ := same
          cases member
          have different := (sized.busyOnce.mem_erase_iff.mp isIn).1
          exact ⟨⟨entry, present, List.mem_of_mem_erase isIn⟩,
            by simpa using different⟩
        · rename_i elsewhere
          refine ⟨⟨list, member, isIn⟩, ?_⟩
          rintro ⟨rfl⟩
          have inPool := (keys.member pool other c
            (Or.inr ⟨list, member, isIn⟩)).1
          rw [detached.pool] at inPool
          cases inPool
          refine elsewhere ⟨rfl, ?_⟩
          exact keys.home p other _ c (Or.inr ⟨list, member, isIn⟩)
            (Or.inr detached.busy)
      · rintro list member
        rw [present] at member
        cases member
        exact ⟨fun _ => id, Nat.le_refl _, fun _ => Or.inl⟩

theorem Filled.newClient
    {w : World}
    (keys : Keys w)
    (filled : Filled w none)
    (loop : Nat)
    (pool : Option Nat) :
    Filled (w.newClient loop pool) none ∧ Moves w (w.newClient loop pool) := by
  have others :
      ∀ c, c < w.nextClient →
        (w.newClient loop pool).clients c = w.clients c := by
    intro c below
    simp [World.newClient, World.setClient, Nat.ne_of_lt below]
  refine ⟨⟨filled.sized, ?_⟩, ⟨?_, fun _ => rfl, Lists.refl w⟩⟩
  · intro p key c isBusy notHole
    have wasBusy : w.Busy p key c := isBusy
    rw [others c (keys.member p key c (Or.inr wasBusy)).2]
    exact filled.runs p key c wasBusy notHole
  · intro p s held
    rcases held with waits | ⟨c, active, inPool⟩
    · exact Or.inl waits
    · refine Or.inr ⟨c, ?_⟩
      rw [others c (keys.known c s active)]
      exact ⟨active, inPool⟩

/-- A pool has found a client for a request, which is idle until it starts it. -/
theorem Filled.placed
    {w placed : World}
    {p c : Nat}
    {key : NetLoc}
    (keys : Keys w)
    (filled : Filled w none)
    (places : Places w p key c placed) :
    Filled placed (some c) ∧ Moves w placed := by
  -- every client of the new list but the given one was busy before
  have others :
      ∀ (base : World) (entry new : NetLocList),
        ((base.pools p).clients key = none ∧ entry = {} ∨
          (base.pools p).clients key = some entry) →
        new.busy = entry.busy.insert c →
        ∀ pool other d,
          (base.setEntry p key (some new)).Busy pool other d →
          some d ≠ some c →
          base.Busy pool other d ∧ some d ≠ none := by
    intro base entry new found busy pool other d isBusy different
    refine ⟨?_, by simp⟩
    obtain ⟨list, member, isIn⟩ := isBusy
    rw [setEntry_clients] at member
    split at member
    · rename_i same
      obtain ⟨rfl, rfl⟩ := same
      cases member
      rw [busy, List.mem_insert_iff] at isIn
      have wasIn := isIn.resolve_left fun same => different (by rw [same])
      rcases found with ⟨_, rfl⟩ | present
      · cases wasIn
      · exact ⟨entry, present, wasIn⟩
    · exact ⟨list, member, isIn⟩
  cases places with
  | @creates entry found =>
      obtain ⟨created, moves⟩ :=
        filled.newClient keys (w.pools p).loop (some p)
      have listed :
          (w.pools p).clients key = none ∧ entry = {} ∨
            (w.pools p).clients key = some entry :=
        found.imp id fun present => present.1
      refine ⟨created.setEntry ?_ (others _ entry _ listed rfl),
        moves.trans (Moves.setEntry ?_)⟩
      · change Sized (w.pools p).maxConnections _
        rcases found with ⟨_, rfl⟩ | ⟨present, noneFree, below⟩
        · exact Sized.first _ _
        · refine (filled.sized p key entry present).grows ?_ noneFree below
          exact fun isBusy =>
            keys.notMember p key (Or.inr ⟨entry, present, isBusy⟩)
      · rintro list member
        have wasThere : list ∈ (w.pools p).clients key := member
        rcases listed with ⟨absent, _⟩ | present
        · rw [absent] at wasThere
          cases wasThere
        · rw [present] at wasThere
          cases wasThere
          exact ⟨fun _ => id, Nat.le_refl _, fun _ => Or.inl⟩
  | @reuses entry _ present isFree =>
      have sized := filled.sized p key entry present
      refine ⟨filled.setEntry (sized.takes isFree ?_)
        (others w entry _ (Or.inr present) rfl), Moves.setEntry ?_⟩
      · intro isBusy
        have runs := filled.runs p key c ⟨entry, present, isBusy⟩ (by simp)
        rw [keys.free p key c ⟨entry, present, isFree⟩] at runs
        cases runs
      · rintro list member
        rw [present] at member
        cases member
        exact ⟨fun _ => id, Nat.le_refl _, fun _ => Or.inl⟩

theorem Still.enqueue
    (w : World)
    (p r : Nat)
    (key : NetLoc)
    (entry : NetLocList) :
    Still
      (w.setEntry p key
        (some
          { entry with
            queue := entry.queue ++ [⟨entry.nextTicket, r⟩]
            generation := entry.generation + 1
            nextTicket := entry.nextTicket + 1 }))
      (w.enqueue p r key entry) := by
  unfold World.enqueue
  dsimp only
  rw [ensureTimerActive_eq]
  refine Still.trans ?_ (Still.emit _ rfl)
  exact Still.setLibrary _ r _ rfl rfl

/-- `Pool::request`: the pool has the request afterwards. -/
theorem poolRequest_filled
    {w : World}
    {p r : Nat}
    (keys : Keys w)
    (filled : Filled w none) :
    (w.poolRequest p r).Post
      (fun next => Filled next none ∧ Moves w next ∧ next.Held p r)
      (fun _ => True) (fun _ => True) := by
  have owned :
      Still w (w.setRequest r { w.requests r with pool := some p }) :=
    Still.setLibrary w r _ rfl rfl
  have ownedKeys := keys.quiet owned.toQuiet
  have ownedFilled := filled.still owned
  refine (poolRequest_post w p r).imp ?_ (fun _ _ => trivial)
    (fun _ _ => trivial)
  rintro next ⟨_, pooled⟩
  generalize w.setRequest r { w.requests r with pool := some p } = own
    at pooled owned ownedKeys ownedFilled
  cases pooled with
  | @starts c placed _ places started =>
      obtain ⟨placedFilled, moves⟩ := ownedFilled.placed ownedKeys places
      refine ⟨placedFilled.started started,
        owned.moves.trans (moves.trans started.moves), Or.inr ⟨c, ?_⟩⟩
      refine ⟨started.active, ?_⟩
      rw [started.client]
      exact (ownedKeys.places places).pool
  | @queues entry present noneFree full =>
      have sized := ownedFilled.sized p _ entry present
      have enqueued := Still.enqueue own p r (own.netloc r) entry
      refine ⟨Filled.still ?_ enqueued,
        owned.moves.trans (Moves.trans ?_ enqueued.moves), ?_⟩
      · refine ownedFilled.setEntry (sized.enqueues noneFree full) ?_
        intro pool other d isBusy notHole
        refine ⟨?_, notHole⟩
        obtain ⟨list, member, isIn⟩ := isBusy
        rw [setEntry_clients] at member
        split at member
        · rename_i same
          obtain ⟨rfl, rfl⟩ := same
          cases member
          exact ⟨entry, present, isIn⟩
        · exact ⟨list, member, isIn⟩
      · refine Moves.setEntry ?_
        rintro list member
        rw [present] at member
        cases member
        refine ⟨fun _ => List.mem_append_left _, Nat.le_succ _, ?_⟩
        intro place isPlace
        refine (List.mem_append.mp isPlace).imp id fun isNew => ?_
        rw [List.mem_singleton.mp isNew]
      · refine Or.inl
          ⟨own.netloc r, (enqueued.toQuiet.waits p (own.netloc r) r).mpr ?_⟩
        refine ⟨
          { entry with
            queue := entry.queue ++ [⟨entry.nextTicket, r⟩]
            generation := entry.generation + 1
            nextTicket := entry.nextTicket + 1 }, ?_, ?_⟩
        · rw [setEntry_clients, if_pos ⟨rfl, rfl⟩]
          rfl
        · simp

/-! ## Finishing a request -/

/-- A place of a queue, if it is still there, is of a request that has ended. -/
def Settled (w : World) (p : Nat) (key : NetLoc) (ticket : Nat) : Prop :=
  ∃ entry ∈ (w.pools p).clients key,
    ticket < entry.nextTicket ∧
      ∀ place ∈ entry.queue,
        place.ticket = ticket → submission place.req w.trace = none

/-- `cancel_request` returns to places of requests that have ended. -/
def Returns (w : World) (stack : List Frame) : Prop :=
  ∀ p key ticket generation,
    .cancelReturn p key ticket generation ∈ stack → w.Settled p key ticket

/-- The pools have all clients and requests, except for these. -/
structure Has (base w : World) (hole loose : Option Nat) : Prop where
  filled : Filled w hole
  pending : Pending w loose
  lists : Lists base w
  ended :
    ∀ r,
      base.Waiting r →
      submission r base.trace = none →
      submission r w.trace = none

theorem Has.moves
    {base w next : World}
    {hole hole' loose : Option Nat}
    (has : Has base w hole loose)
    (filled : Filled next hole')
    (moves : Moves w next) :
    Has base next hole' loose where
  filled := filled
  pending := moves.pending has.pending
  lists := has.lists.trans moves.lists
  ended r waiting ended := by
    rw [moves.calm]
    exact has.ended r waiting ended

theorem Has.still
    {base w next : World}
    {hole loose : Option Nat}
    (has : Has base w hole loose)
    (still : Still w next) :
    Has base next hole loose :=
  has.moves (has.filled.still still) still.moves

/-- What settles a place keeps settling it. -/
theorem Has.settled
    {base w : World}
    {hole loose : Option Nat}
    {p ticket : Nat}
    {key : NetLoc}
    (has : Has base w hole loose)
    (settled : base.Settled p key ticket) :
    w.Settled p key ticket := by
  obtain ⟨entry, member, issued, ended⟩ := settled
  obtain ⟨new, isNew, later, queue⟩ := has.lists p key entry member
  refine ⟨new, isNew, Nat.lt_of_lt_of_le issued later, ?_⟩
  intro place isPlace isTicket
  rcases queue place isPlace with old | newer
  · exact has.ended place.req
      ⟨p, key, entry, member, List.mem_map_of_mem old⟩
      (ended place old isTicket)
  · omega

/-- The application is called, if at all, while the pools have everything. -/
def Reaches (base : World) (step : Step) : Prop :=
  ∀ next frames,
    step = .next next frames →
    Has base next none none ∧ next.Returns frames

theorem reaches_before
    {base : World}
    {straight : Straight}
    {second : World → Step}
    {ok : World → Prop}
    (post : straight.Post ok (fun _ => True) (fun _ => True))
    (next : ∀ w, ok w → Reaches base (second w)) :
    Reaches base (straight.before second) := by
  intro final frames executed
  obtain ⟨middle, rfl, goesOn⟩ := Straight.before_next executed
  exact next middle post final frames goesOn

theorem reaches_andFrames
    {base : World}
    {step : Step}
    {frames : List Frame}
    (reaches : Reaches base step)
    (settles : ∀ next, Has base next none none → next.Returns frames) :
    Reaches base (andFrames step frames) := by
  intro final all executed
  obtain ⟨first, isNext, rfl⟩ := andFrames_next executed
  obtain ⟨has, returns⟩ := reaches final first isNext
  refine ⟨has, ?_⟩
  intro p key ticket generation member
  exact (List.mem_append.mp member).elim
    (returns p key ticket generation)
    (settles final has p key ticket generation)

/-- No frame of the list returns to a queue. -/
def NoReturn (frames : List Frame) : Prop :=
  ∀ p key ticket generation,
    Frame.cancelReturn p key ticket generation ∉ frames

theorem NoReturn.returns
    {frames : List Frame}
    (none : NoReturn frames)
    (w : World) :
    w.Returns frames :=
  fun p key ticket generation member =>
    (none p key ticket generation member).elim

theorem noReturn_nil : NoReturn [] := by
  simp [NoReturn]

theorem Reaches.next
    {base w : World}
    {frames : List Frame}
    (has : Has base w none none)
    (noReturn : NoReturn frames) :
    Reaches base (.next w frames) := by
  rintro final all ⟨⟩
  exact ⟨has, noReturn.returns w⟩

theorem Reaches.fault {base : World} {reason : Fault} :
    Reaches base (.fault reason) := by
  rintro final all ⟨⟩

/-- A client gives its request up. -/
theorem Has.detach
    {base w : World}
    {c r : Nat}
    (has : Has base w none none)
    (active : (w.clients c).request = some r) :
    Has base (w.detached c) (some c) (some r) := by
  have others : ∀ d, d ≠ c → (w.detached c).clients d = w.clients d := by
    intro d different
    simp [World.detached, World.setClient, different]
  refine ⟨has.filled.quiet (Quiet.detached w c) (fun _ => rfl) ?_, ?_,
    has.lists, has.ended⟩
  · intro d notHole
    refine ⟨by simp, ?_⟩
    rw [others d (by simpa using notHole)]
  · intro s p submitted notLoose
    refine (Quiet.detached w c).held
      (has.pending s p submitted (by simp)) ?_
    intro d wasActive
    rw [others d ?_]
    · exact wasActive
    · rintro rfl
      rw [active] at wasActive
      exact notLoose wasActive.symm

theorem Still.weak (w : World) (c : Nat) (value : Bool) :
    Still w (w.weak c value) :=
  setTcp w c _

theorem Still.reset (w : World) (c : Nat) : Still w (w.reset c) :=
  setTcp w c _

theorem stopForm_still (w : World) (c r : Nat) :
    (w.stopForm c r).Post (Still w) (fun _ => True) (fun _ => True) := by
  have stopped :
      ∀ middle : World,
        Still middle
          (middle.setClient c { middle.clients c with formField := -1 }) :=
    fun middle => Still.setClient middle c _ rfl rfl rfl
  unfold stopForm
  dsimp only
  split
  · exact Still.refl w
  · split
    · trivial
    · split
      · trivial
      · refine Still.trans ?_ (stopped _)
        exact Still.setLibrary w r _ rfl rfl
    · exact stopped w

/-- The client is put back, or it belongs to no pool. -/
theorem putback_has
    {base w : World}
    {p c : Nat}
    {loose : Option Nat}
    (keys : Keys w)
    (has : Has base w (some c) loose)
    (detached : Detached w p c) :
    (w.putback p c).Post (fun next => Has base next none loose)
      (fun _ => True) (fun _ => True) :=
  (putback_filled keys has.filled detached).imp
    (fun _ ⟨filled, moves⟩ => has.moves filled moves)
    (fun _ _ => trivial) (fun _ _ => trivial)

theorem Filled.alone
    {w : World}
    {c : Nat}
    (keys : Keys w)
    (filled : Filled w (some c))
    (alone : (w.clients c).pool = none) :
    Filled w none where
  sized := filled.sized
  runs p key d isBusy _ := by
    refine filled.runs p key d isBusy ?_
    rintro ⟨rfl⟩
    have inPool := (keys.member p key c (Or.inr isBusy)).1
    rw [alone] at inPool
    cases inPool

theorem releaseClient_has
    {base w : World}
    {c r : Nat}
    {loose : Option Nat}
    (response : Option Response)
    (error : Option ErrorCode)
    (keys : Keys w)
    (has : Has base w (some c) loose)
    (detached : ∀ p, (w.clients c).pool = some p → Detached w p c) :
    (w.releaseClient c r response error).Post
      (fun next => Has base next none loose)
      (fun _ => True) (fun _ => True) := by
  obtain ⟨drops, released⟩ := releaseClient_cases w c r response error
  rw [released]
  generalize shape :
    (if drops = true then w.reset c else w.weak c true) = kept
  have either :
      ∀ drops : Bool,
        Still w (if drops = true then w.reset c else w.weak c true) := by
    intro drops
    cases drops
    · exact Still.weak w c true
    · exact Still.reset w c
  have keptStill : Still w kept := shape ▸ either _
  refine Straight.Post.andThen (stopForm_still kept c r) ?_
  intro stopped stoppedStill
  have still : Still w (stopped.rested c) :=
    (keptStill.trans stoppedStill).trans (Still.rested stopped c)
  have restedKeys := keys.quiet still.toQuiet
  split
  · rename_i alone
    have rested := has.still still
    exact { rested with filled := rested.filled.alone restedKeys alone }
  · rename_i p inPool
    have wasIn : (w.clients c).pool = some p := by
      rw [← still.toQuiet.pool]
      exact inPool
    exact putback_has restedKeys (has.still still)
      ((detached p wasIn).quiet still.toQuiet)

/-- The submission of a request that nobody has any more ends. -/
theorem finishAndNotify_has
    {base w : World}
    {r : Nat}
    (response : Option Response)
    (error : Option ErrorCode)
    (idle : ¬ w.Active r)
    (has : Has base w none (some r)) :
    ∃ next frames,
      w.finishAndNotify r response error = .next next frames ∧
        NoReturn frames ∧
        Has base next none none ∧
        next.pools = w.pools ∧
        submission r next.trace = none := by
  have finished :
      Still w (w.setRequest r (w.requests r).finished) := by
    refine Still.of_setRequest (Quiet.setRequest w r _ ?_ fun _ => rfl)
    exact fun active => (idle active).elim
  have still := has.still finished
  have ends :
      ∀ s,
        submission s
            ((w.setRequest r (w.requests r).finished).emit
              (.finished r)).trace =
          if r = s then none else submission s w.trace :=
    fun s => ongoing_finished _ s r w.trace
  refine ⟨_, _, rfl, by simp [NoReturn], ⟨?_, ?_, still.lists, ?_⟩, rfl,
    (ends r).trans (if_pos rfl)⟩
  · exact still.filled.quiet (Quiet.emit _ _) (fun _ => rfl)
      fun _ notHole => ⟨notHole, rfl⟩
  · intro s p submitted _
    rw [ends] at submitted
    split at submitted
    · cases submitted
    · rename_i different
      exact still.pending s p submitted fun same =>
        different (Option.some.inj same).symm
  · intro s waiting ended
    rw [ends]
    split
    · rfl
    · exact still.ended s waiting ended

theorem finishRequest_has
    {base w : World}
    (c : Nat)
    (error : Option ErrorCode)
    (keys : Keys w)
    (has : Has base w none none) :
    Reaches base (w.finishRequest c error) := by
  cases active : (w.clients c).request with
  | none =>
      unfold finishRequest
      rw [active]
      exact Reaches.fault
  | some r =>
      have quiet := Quiet.detached w c
      obtain ⟨loose, detached⟩ :=
        keys.detach active quiet (by simp [World.detached, setClient])
      have detachedKeys := keys.quiet quiet
      unfold finishRequest
      simp only [active]
      split
      · exact Reaches.fault
      · refine reaches_before
          (((releaseClient_keys _ _ detachedKeys loose detached).and
            (releaseClient_has _ _ detachedKeys (has.detach active)
              detached)).imp (fun _ => id) (fun _ _ => trivial)
              (fun _ _ => trivial)) ?_
        rintro next ⟨⟨_, nextLoose⟩, nextHas⟩
        obtain ⟨last, frames, executed, noReturn, lastHas, _⟩ :=
          finishAndNotify_has _ _ nextLoose.1 nextHas
        rw [executed]
        exact Reaches.next lastHas noReturn

theorem cancel_has
    {base w : World}
    (c : Nat)
    (error : Option ErrorCode)
    (keys : Keys w)
    (has : Has base w none none) :
    Reaches base (w.cancel c error) := by
  unfold cancel
  dsimp only
  split
  · exact Reaches.next has (by simp [NoReturn])
  · have parsed := Still.setClient w c
      { w.clients c with
        parsing := none
        redirectCanceled :=
          (w.clients c).redirectCanceled || (w.clients c).inRedirect }
      rfl rfl rfl
    exact finishRequest_has c error (keys.quiet parsed.toQuiet)
      (has.still parsed)

/-! ## Following a redirect -/

theorem analyzeRequest_has
    {base w : World}
    (c : Nat)
    (keys : Keys w)
    (has : Has base w none none) :
    Reaches base (w.analyzeRequest c) := by
  unfold analyzeRequest
  dsimp only
  split
  · exact Reaches.fault
  · exact Reaches.fault
  · rename_i r response active _
    split
    · exact Reaches.next has (by simp [NoReturn])
    · split
      · split
        · exact cancel_has c _ keys has
        · have counted :
              Still w
                (w.setRequest r
                  { w.requests r with
                    redirectionCounter :=
                      ((w.requests r).redirectionCounter + 1) % 2 ^ 16 }) :=
            Still.setLibrary w r _ rfl rfl
          have countedKeys := keys.quiet counted.toQuiet
          split
          · exact cancel_has c _ countedKeys (has.still counted)
          · split
            · exact cancel_has c _ countedKeys (has.still counted)
            · rename_i location _
              have redirects :=
                countedKeys.rewrites active
                  (Request.redirectedTo
                    { w.requests r with
                      redirectionCounter :=
                        ((w.requests r).redirectionCounter + 1) % 2 ^ 16 }
                    location)
                  (by simp [setRequest, Request.redirectedTo])
              exact Reaches.next
                (((has.still counted).still (Still.of_setRequest redirects))
                  |>.still (Still.setClient _ c _ rfl rfl rfl))
                (by simp [NoReturn])
      · exact finishRequest_has c none keys has

theorem hopping_has
    {base w : World}
    {c r : Nat}
    (response : Response)
    (keys : Keys w)
    (has : Has base w none none)
    (active : (w.clients c).request = some r) :
    Has base (w.hopping c r response) (some c) (some r) := by
  have gone := has.detach active
  have loose :=
    (keys.detach active (Quiet.detached w c)
      (by simp [World.detached, setClient])).1
  have unlinked :
      Still (w.detached c)
        ((w.detached c).setRequest r
          { (w.detached c).requests r with client := none }) :=
    Still.of_setRequest
      (Quiet.setRequest _ r _ (fun still => (loose.1 still).elim) fun _ => rfl)
  have unlinkedLoose := loose.quiet unlinked.toQuiet
  have cleaned :
      ∀ next : World,
        Loose next r →
        Still next (next.setRequest r (next.requests r).cleanupAfterRedirect) :=
    fun next free =>
      Still.of_setRequest (Quiet.setRequest next r _
        (fun still => (free.1 still).elim) fun _ => rfl)
  unfold hopping
  dsimp only
  split
  · exact (gone.still unlinked).still (cleaned _ unlinkedLoose)
  · have dropped := Still.reset
      ((w.detached c).setRequest r
        { (w.detached c).requests r with client := none }) c
    exact ((gone.still unlinked).still dropped).still
      (cleaned _ (unlinkedLoose.quiet dropped.toQuiet))

/-- The request that nobody has is held by its pool again. -/
theorem Pending.found
    {w : World}
    {r : Nat}
    (pending : Pending w (some r))
    (held : ∀ p, submission r w.trace = some (some p) → w.Held p r) :
    Pending w none := by
  intro s p submitted _
  by_cases same : s = r
  · subst s
    exact held p submitted
  · exact pending s p submitted (by simpa using same)

/-- A request in flight belongs to the pool of its client. -/
theorem Pending.poolOf
    {w : World}
    {c r p : Nat}
    (keys : Keys w)
    (pending : Pending w none)
    (active : (w.clients c).request = some r)
    (submitted : submission r w.trace = some (some p)) :
    (w.clients c).pool = some p := by
  rcases pending r p submitted (by simp) with ⟨key, waits⟩ | ⟨d, other, inPool⟩
  · exact (keys.apart r ⟨c, active⟩ ⟨p, key, waits⟩).elim
  · have same : d = c :=
      Option.some.inj
        ((keys.linked d r other).symm.trans (keys.linked c r active))
    rwa [← same]

theorem hopping_trace (w : World) (c r : Nat) (response : Response) :
    (w.hopping c r response).trace = w.trace := by
  unfold hopping
  dsimp only
  split <;> rfl

theorem followRedirect_has
    {base w : World}
    {c r : Nat}
    (response : Response)
    (keys : Keys w)
    (has : Has base w none none)
    (active : (w.clients c).request = some r) :
    (w.followRedirect c r response).Post (fun next => Has base next none none)
      (fun _ => True) (fun _ => True) := by
  obtain ⟨quiet, idle⟩ := hopping_keys response keys active
  obtain ⟨loose, detached⟩ := keys.detach active quiet idle
  have hoppedKeys := keys.quiet quiet
  have hopped := hopping_has response keys has active
  have poolOf :
      ∀ p,
        submission r (w.hopping c r response).trace = some (some p) →
        (w.clients c).pool = some p := by
    intro p submitted
    rw [hopping_trace] at submitted
    exact has.pending.poolOf keys active submitted
  have self :
      ((w.hopping c r response).clientRequest c r).Post
        (fun next => Has base next none none)
        (fun _ => True) (fun _ => True) := by
    refine (clientRequest_post _ c r).imp ?_ (fun _ _ => trivial)
      (fun _ _ => trivial)
    intro next started
    have moved := hopped.moves (hopped.filled.started started) started.moves
    refine { moved with pending := moved.pending.found ?_ }
    intro p submitted
    rw [submission, started.ongoing _] at submitted
    refine Or.inr ⟨c, started.active, ?_⟩
    rw [started.client]
    exact (quiet.pool c).trans (poolOf p submitted)
  unfold followRedirect
  dsimp only
  split
  · exact self
  · rename_i p inPool
    split
    · have rests := Still.rested (w.hopping c r response) c
      have isDetached :=
        (detached p ((quiet.pool c).trans inPool)).quiet rests.toQuiet
      have restedKeys := hoppedKeys.quiet rests.toQuiet
      refine Straight.Post.andThen
        (((putback_keys restedKeys isDetached).and
          ((putback_filled restedKeys (hopped.still rests).filled isDetached)))
          |>.imp (fun _ => id) (fun _ _ => trivial) (fun _ _ => trivial)) ?_
      rintro next ⟨⟨nextKeys, _, _⟩, nextFilled, moves⟩
      have weak := Still.weak next c true
      have moved := moves.trans weak.moves
      refine (poolRequest_filled (nextKeys.quiet weak.toQuiet)
        (nextFilled.still weak)).imp ?_ (fun _ _ => trivial)
        (fun _ _ => trivial)
      rintro last ⟨lastFilled, lastMoves, held⟩
      have allMoves := moved.trans lastMoves
      have has := (hopped.still rests).moves lastFilled allMoves
      refine { has with pending := has.pending.found ?_ }
      intro pool submitted
      rw [allMoves.calm] at submitted
      have samePool := poolOf pool submitted
      rw [inPool] at samePool
      cases samePool
      exact held
    · exact self

/-- Straight code that is followed by nothing. -/
theorem reaches_alone
    {base : World}
    {straight : Straight}
    (post :
      straight.Post (fun next => Has base next none none)
        (fun _ => True) (fun _ => True)) :
    Reaches base (straight.before fun next => .next next []) :=
  reaches_before post fun _ has => Reaches.next has noReturn_nil

theorem redirected_has
    {base w : World}
    {c : Nat}
    (keys : Keys w)
    (has : Has base w none none) :
    Reaches base (w.redirected c) := by
  unfold redirected
  dsimp only
  split
  · exact Reaches.next (has.still (Still.setClient w c _ rfl rfl rfl))
      noReturn_nil
  · have left :
        Still w (w.setClient c { w.clients c with inRedirect := false }) :=
      Still.setClient w c _ rfl rfl rfl
    have leftKeys := keys.quiet left.toQuiet
    split
    · exact Reaches.fault
    · exact Reaches.fault
    · rename_i r response active _
      have stillActive :
          ((w.setClient c
            { w.clients c with inRedirect := false }).clients c).request =
            some r := by
        simpa [setClient] using active
      split
      · have rewritten := leftKeys.rewrites stillActive
          { (w.setClient c
              { w.clients c with inRedirect := false }).requests r with
            method := .get, body := [] } rfl
        exact reaches_alone (followRedirect_has response
          (leftKeys.quiet rewritten)
          ((has.still left).still (Still.of_setRequest rewritten)) stillActive)
      · exact reaches_alone (followRedirect_has response leftKeys
          (has.still left) stillActive)

/-! ## Receiving -/

theorem receivePart_has
    {base w : World}
    (c : Nat)
    (response : Response)
    (has : Has base w none none) :
    Reaches base (w.receivePart c response) := by
  unfold receivePart
  split
  · exact Reaches.next has (by simp [NoReturn])
  · split
    · exact Reaches.fault
    · split <;> exact Reaches.next has (by simp [NoReturn])

theorem onReadLoop_has
    {base w : World}
    (c buffer : Nat)
    (buf : List Parsed)
    (keys : Keys w)
    (has : Has base w none none) :
    Reaches base (w.onReadLoop c buffer buf) := by
  cases buf with
  | nil =>
      exact Reaches.next has (by simp [NoReturn])
  | cons result rest =>
      simp only [onReadLoop]
      split
      · exact Reaches.next (has.still (Still.reset w c)) noReturn_nil
      · rename_i context _
        have parsed : Still w (w.parseShift c buffer context result) := by
          refine Still.trans ?_ (Still.emit _ rfl)
          exact Still.setClient w c _ rfl rfl rfl
        have parsedKeys := keys.quiet parsed.toQuiet
        have parsedHas := has.still parsed
        cases result with
        | error error _ =>
            exact cancel_has c _ parsedKeys parsedHas
        | headers =>
            exact Reaches.next parsedHas noReturn_nil
        | body _ =>
            exact receivePart_has c _ parsedHas
        | done _ =>
            exact reaches_andFrames (analyzeRequest_has c parsedKeys parsedHas)
              fun next _ => NoReturn.returns (by simp [NoReturn]) next

theorem onEof_has
    {base w : World}
    (c : Nat)
    (error : Option ErrorCode)
    (response : Response)
    (keys : Keys w)
    (has : Has base w none none) :
    Reaches base (w.onEof c error response) := by
  unfold onEof
  dsimp only
  split
  · exact Reaches.next (has.still (Still.reset w c)) noReturn_nil
  · exact Reaches.fault
  · have ended := Still.setClient w c
      { w.clients c with
        response := some { response with isDone := true }, parsing := none }
      rfl rfl rfl
    split
    · exact cancel_has c _ (keys.quiet ended.toQuiet) (has.still ended)
    · exact analyzeRequest_has c (keys.quiet ended.toQuiet) (has.still ended)

theorem formFileComplete_has
    {base w : World}
    (c : Nat)
    (error : Option ErrorCode)
    (keys : Keys w)
    (has : Has base w none none) :
    Reaches base (w.formFileComplete c error) := by
  unfold formFileComplete
  split
  · exact finishRequest_has c _ keys has
  · refine reaches_alone ?_
    have counted := Still.setClient w c
      { w.clients c with formField := (w.clients c).formField + 1 }
      rfl rfl rfl
    generalize w.setClient c
      { w.clients c with formField := (w.clients c).formField + 1 } = next
      at counted
    cases active : (next.clients c).request with
    | none =>
        simp only [sendForm, active]
        trivial
    | some r =>
        exact (sendForm_post next c r active).imp
          (fun _ sends => (has.still counted).still (Still.of_sends sends))
          (fun _ _ => trivial) (fun _ _ => trivial)

theorem redirectCatch_has
    {base w : World}
    (c : Nat)
    (keys : Keys w)
    (has : Has base w none none) :
    Reaches base (w.redirectCatch c) := by
  have left := Still.setClient w c
    { w.clients c with inRedirect := false, redirectCanceled := false }
    rfl rfl rfl
  exact reaches_andFrames
    (cancel_has c _ (keys.quiet left.toQuiet) (has.still left))
    fun next _ => NoReturn.returns (by simp [NoReturn]) next

/-! ## Queued requests and idle clients -/

/-- The place of the request that `cancel_request` ends is settled. -/
theorem cancelRequest_has
    {base w : World}
    (p r : Nat)
    (error : Option ErrorCode)
    (keys : Keys w)
    (has : Has base w none none) :
    Reaches base (w.cancelRequest p r error) := by
  unfold cancelRequest
  dsimp only
  split
  · exact Reaches.fault
  · rename_i entry present
    split
    · exact Reaches.fault
    · rename_i place found
      have member := List.mem_of_find?_eq_some found
      have isRequest : place.req = r := by
        simpa using List.find?_some found
      have idle : ¬ w.Active r := fun active =>
        keys.apart r active
          ⟨p, _, entry, present, List.mem_map.mpr ⟨place, member, isRequest⟩⟩
      obtain ⟨next, frames, executed, noReturn, nextHas, pools, ended⟩ :=
        finishAndNotify_has none error idle
          { has with pending := fun s q submitted _ =>
              has.pending s q submitted (by simp) }
      rw [executed]
      rintro final all ⟨⟩
      refine ⟨nextHas, ?_⟩
      intro q key ticket generation isFrame
      rcases List.mem_append.mp isFrame with inFirst | isReturn
      · exact (noReturn q key ticket generation inFirst).elim
      · simp only [List.mem_singleton, Frame.cancelReturn.injEq] at isReturn
        obtain ⟨rfl, rfl, rfl, _⟩ := isReturn
        have sized := has.filled.sized q _ entry present
        refine ⟨entry, by rw [pools]; exact present,
          sized.issued place member, ?_⟩
        intro other isOther sameTicket
        have same : other = place :=
          List.inj_on_of_nodup_map sized.ticketOnce isOther member sameTicket
        rw [same, isRequest]
        exact ended

/-- Only a place of a request that has ended is erased. -/
theorem cancelReturn_has
    {w : World}
    {p ticket : Nat}
    {key : NetLoc}
    (generation : Nat)
    (has : Has w w none none)
    (settled : w.Settled p key ticket) :
    Reaches w (w.cancelReturn p key ticket generation) := by
  obtain ⟨entry, present, _, ended⟩ := settled
  unfold cancelReturn
  rw [present]
  dsimp only
  split
  · rename_i found
    generalize atIndex :
      entry.queue.findIdx (fun place => place.ticket == ticket) = index
      at found
    have below : index < entry.queue.length := found.2
    have isTicket : entry.queue[index].ticket = ticket := by
      subst atIndex
      simpa using
        List.findIdx_getElem (p := fun place : Place => place.ticket == ticket)
          (w := below)
    have shorter := List.eraseIdx_sublist entry.queue index
    have sized := has.filled.sized p key entry present
    refine Reaches.next ⟨has.filled.setEntry ?_ ?_, ?_, ?_, has.ended⟩
      noReturn_nil
    · exact sized.shrinks (List.Sublist.refl _) shorter sized.alive
    · intro pool other c isBusy notHole
      refine ⟨?_, notHole⟩
      obtain ⟨list, member, isIn⟩ := isBusy
      rw [setEntry_clients] at member
      split at member
      · rename_i same
        obtain ⟨rfl, rfl⟩ := same
        cases member
        exact ⟨entry, present, isIn⟩
      · exact ⟨list, member, isIn⟩
    · intro s pool submitted notLoose
      rcases has.pending s pool submitted notLoose with
        ⟨other, list, member, waits⟩ | active
      · refine Or.inl ⟨other, ?_⟩
        simp only [Waits, setEntry_clients]
        split
        · rename_i same
          obtain ⟨rfl, rfl⟩ := same
          rw [present] at member
          cases member
          obtain ⟨place, isPlace, rfl⟩ := List.mem_map.mp waits
          refine ⟨_, rfl, List.mem_map_of_mem ?_⟩
          rw [List.mem_eraseIdx_iff_getElem]
          obtain ⟨position, bound, rfl⟩ := List.getElem_of_mem isPlace
          refine ⟨position, bound, ?_, rfl⟩
          rintro rfl
          have gone := ended _ isPlace isTicket
          exact absurd (gone.symm.trans submitted) (by simp)
        · exact ⟨list, member, waits⟩
      · exact Or.inr active
    · refine Lists.setEntry fun list member => ?_
      rw [present] at member
      cases member
      exact ⟨Nat.le_refl _, fun place isPlace =>
        Or.inl (shorter.subset isPlace)⟩
  · exact Reaches.fault

theorem Full.has {w : World} (full : Full w) : Has w w none none :=
  ⟨full.filled, full.pending, Lists.refl w, fun _ _ => id⟩

/-- `check_inactivity` takes free clients only, and no list that has busy ones. -/
theorem Full.checkInactivity
    {w : World}
    (full : Full w)
    (p : Nat) :
    Full (w.checkInactivity p) := by
  have limit :
      ∀ pool,
        ((w.checkInactivity p).pools pool).maxConnections =
          (w.pools pool).maxConnections := by
    intro pool
    by_cases same : pool = p
    · subst pool
      simp [World.checkInactivity]
    · simp [World.checkInactivity, same]
  refine ⟨checkInactivity_keys p full.keys, ⟨?_, ?_⟩, ?_⟩
  · intro pool key entry member
    obtain ⟨old, oldMember, free, rfl, fewer, alive⟩ :=
      checkInactivity_from member
    have sized := full.filled.sized pool key old oldMember
    rw [limit]
    exact sized.shrinks fewer (List.Sublist.refl _) (alive sized.alive)
  · rintro pool key c ⟨entry, member, isBusy⟩ notHole
    obtain ⟨old, oldMember, _, rfl, _⟩ := checkInactivity_from member
    exact full.filled.runs pool key c ⟨old, oldMember, isBusy⟩ notHole
  · intro r pool submitted notLoose
    rcases full.pending r pool submitted notLoose with
      ⟨key, old, member, waits⟩ | active
    · have waited : old.queue ≠ [] := by
        rintro empty
        simp [empty] at waits
      have sized := full.filled.sized pool key old member
      have busy : old.busy ≠ [] := by
        have positive := (sized.saturated waited).2
        intro empty
        simp [empty] at positive
      obtain ⟨entry, entryMember, _, rfl⟩ :=
        checkInactivity_kept p member busy
      exact Or.inl ⟨key, _, entryMember, waits⟩
    · exact Or.inr active

/-! ## The calls of the application and the user agent -/

theorem inject_still
    {w : World}
    (a r : Nat)
    (contextUri : Uri)
    (topLevel : Bool)
    (time : Nat)
    (same :
      w.Waiting r →
      (w.inject a r contextUri topLevel time).location r = w.location r) :
    Still w (w.inject a r contextUri topLevel time) where
  toQuiet := inject_loose a r contextUri topLevel time same
  kept _ := rfl
  limit _ := rfl
  calm s := ongoing_append _ s w.trace _ (by simp [keepsSubmissions])

theorem collect_still (w : World) (a : Nat) (cookies : Cookies) (uri : Uri) :
    Still w (w.collect a cookies uri) where
  toQuiet := collect_quiet w a cookies uri
  kept _ := rfl
  limit _ := rfl
  calm s := ongoing_append _ s w.trace _ (by simp [keepsSubmissions])

/-- The submission of a request that its pool has is recorded. -/
theorem acceptedOn_has
    {w : World}
    {straight : Straight}
    {r : Nat}
    (pool : Option Nat)
    (loop : Nat)
    (notWaiting : ¬ w.Waiting r)
    (post :
      straight.Post
        (fun next =>
          Has w next none none ∧ ∀ p, pool = some p → next.Held p r)
        (fun _ => True) (fun _ => True)) :
    Reaches w (straight.before (acceptedOn pool loop r)) := by
  refine reaches_before post ?_
  rintro next ⟨has, held⟩
  have submissions :
      ∀ s,
        submission s
            (next.emit
              (.accepted r pool loop (next.now loop)
                (next.requests r).timeout)).trace =
          if r = s then some pool else submission s next.trace :=
    fun s => ongoing_accepted _ s r pool loop _ _ next.trace
  refine Reaches.next ⟨?_, ?_, has.lists, ?_⟩ noReturn_nil
  · exact has.filled.quiet (Quiet.emit _ _) (fun _ => rfl)
      fun _ notHole => ⟨notHole, rfl⟩
  · intro s p submitted notLoose
    rw [submissions] at submitted
    split at submitted
    · rename_i same
      subst same
      exact held p (Option.some.inj submitted)
    · exact has.pending s p submitted notLoose
  · intro s waiting ended
    rw [submissions]
    split
    · rename_i same
      subst same
      exact (notWaiting waiting).elim
    · exact has.ended s waiting ended

theorem requestSend_has
    {w : World}
    (r : Nat)
    {send : Nat → Step}
    (sends : ∀ c, Reaches w (send c)) :
    Reaches w (w.requestSend r send) := by
  unfold requestSend
  dsimp only
  split
  · rintro next frames ⟨⟩
  · split
    · rintro next frames ⟨⟩
    · split
      · exact sends _
      · exact Reaches.fault

theorem fireTimer_has
    {w : World}
    (r : Nat)
    (timer : Timer)
    (full : Full w) :
    Reaches w (w.fireTimer r timer) := by
  have fired :
      Still w
        (w.setRequest r
          { w.requests r with
            timer := some { timer with deadline := none } }) :=
    Still.setLibrary w r _ rfl rfl
  have firedKeys := full.keys.quiet fired.toQuiet
  have firedHas := full.has.still fired
  unfold fireTimer
  dsimp only
  split
  · unfold onTimer
    dsimp only
    split
    · exact cancel_has _ _ firedKeys firedHas
    · exact cancelRequest_has _ r _ firedKeys firedHas
    · exact Reaches.next firedHas noReturn_nil
  · exact Reaches.next firedHas noReturn_nil

/-! ## Runs -/

/-- An exception leaves the code, other than one of the application. -/
def Throws (config : Config) : Label → Prop
  | .tick =>
      ∃ frame rest next,
        config.stack = frame :: rest ∧
          frame ≠ .rethrow ∧
          code frame config.state = .raise next
  | .input input =>
      ∃ next,
        accept input config.stack.head? config.state = some (.raise next)
  | _ => False

/-- No request in flight changes its location, limits are constant, nothing throws. -/
structure KeepsCapacity (config : Config) (label : Label) : Prop where
  keepsLocations : KeepsLocations config label
  constant : ∀ p value, label ≠ .input (.maxConnections p value)
  noThrow : ¬ Throws config label

theorem code_has
    {w : World}
    {frame : Frame}
    {rest : List Frame}
    (full : Full w)
    (permitted : KeepsLocations ⟨w, frame :: rest, none⟩ .tick)
    (returns : w.Returns (frame :: rest)) :
    Reaches w (code frame w) := by
  cases frame with
  | callback callback =>
      exact Reaches.next full.has noReturn_nil
  | fire callback =>
      refine Reaches.next (full.has.still (Still.emit w rfl)) ?_
      intro p key ticket generation member
      obtain ⟨listener, _, isReturn⟩ := List.mem_map.mp member
      cases listener with
      | application =>
          cases isReturn
      | agent a contextUri topLevel =>
          cases callback <;> cases isReturn
  | agentResponse a r response error =>
      refine Reaches.next ?_ noReturn_nil
      unfold agentResponse
      split
      · exact full.has
      · exact full.has.still (collect_still w _ _ _)
  | agentRedirect a contextUri topLevel c context =>
      obtain ⟨reason, _, faults⟩ | ⟨response, r, answered, active, acts⟩ :=
        code_agentRedirect w a contextUri topLevel c context
      · rw [faults]
        exact Reaches.fault
      · rw [acts]
        have collected := collect_still w a response.cookies context.uri
        refine Reaches.next
          ((full.has.still collected).still (inject_still _ _ _ _ _ ?_))
          noReturn_nil
        intro waiting
        have waited := (collected.toQuiet.waiting r).mp waiting
        exact (permitted response r answered active waited).trans
          (collected.toQuiet.location r waited).symm
  | onRead c buffer buf =>
      exact onReadLoop_has c buffer buf full.keys full.has
  | continued c =>
      exact Reaches.next
        (full.has.still (Still.setClient w c _ rfl rfl rfl)) noReturn_nil
  | redirected c =>
      exact redirected_has full.keys full.has
  | redirectCatch c =>
      exact redirectCatch_has c full.keys full.has
  | rethrow =>
      rintro next frames ⟨⟩
  | cancelReturn p key ticket generation =>
      exact cancelReturn_has generation full.has
        (returns p key ticket generation List.mem_cons_self)

theorem clientRequest_has
    {w : World}
    {c r : Nat}
    (full : Full w)
    (alone : (w.clients c).pool = none) :
    (w.clientRequest c r).Post (fun next => Has w next none none)
      (fun _ => True) (fun _ => True) := by
  refine (clientRequest_post w c r).imp ?_ (fun _ _ => trivial)
    (fun _ _ => trivial)
  intro next started
  refine full.has.moves ⟨?_, ?_⟩ started.moves
  · rw [started.pools]
    exact full.filled.sized
  · intro p key d isBusy notHole
    have wasBusy : w.Busy p key d := by
      simpa [Busy, started.pools] using isBusy
    have different : d ≠ c := by
      rintro rfl
      have inPool := (full.keys.member p key d (Or.inr wasBusy)).1
      rw [alone] at inPool
      cases inPool
    rw [started.clients d different]
    exact full.filled.runs p key d wasBusy notHole

theorem poolRequest_has
    {w next : World}
    {p r : Nat}
    (keys : Keys next)
    (has : Has w next none none) :
    (next.poolRequest p r).Post
      (fun last => Has w last none none ∧ ∀ q, some p = some q → last.Held q r)
      (fun _ => True) (fun _ => True) := by
  refine (poolRequest_filled keys has.filled).imp ?_ (fun _ _ => trivial)
    (fun _ _ => trivial)
  rintro last ⟨filled, moves, held⟩
  refine ⟨has.moves filled moves, ?_⟩
  rintro q ⟨rfl⟩
  exact held

theorem agentRequest_has
    {w : World}
    {a r : Nat}
    {contextUri : Uri}
    {topLevel : Bool}
    (full : Full w)
    (loose : Loose w r) :
    (w.agentRequest a r contextUri topLevel).Post
      (fun next =>
        Has w next none none ∧
          ∀ q, some (w.agents a).pool = some q → next.Held q r)
      (fun _ => True) (fun _ => True) := by
  unfold agentRequest
  dsimp only
  have listens :
      Still w
        (w.setRequest r
          { w.requests r with
            responseListeners :=
              (w.requests r).responseListeners ++
                [Listener.agent a contextUri topLevel]
            redirectListeners :=
              (w.requests r).redirectListeners ++
                [Listener.agent a contextUri topLevel] }) :=
    Still.setLibrary w r _ rfl rfl
  split
  · trivial
  · have injects := listens.trans (inject_still a r contextUri topLevel
      (agentNow
        (w.setRequest r
          { w.requests r with
            responseListeners :=
              (w.requests r).responseListeners ++
                [Listener.agent a contextUri topLevel]
            redirectListeners :=
              (w.requests r).redirectListeners ++
                [Listener.agent a contextUri topLevel] }) a)
      fun waiting => ((loose.quiet listens.toQuiet).2 waiting).elim)
    exact poolRequest_has (full.keys.quiet injects.toQuiet)
      (full.has.still injects)

/-- Every entry point but `check_inactivity`, which acts when nothing runs. -/
theorem accept_has
    {w : World}
    {input : Input}
    {stack : List Frame}
    {outcome : Step}
    (full : Full w)
    (permitted : KeepsLocations ⟨w, stack, none⟩ (.input input))
    (constant : ∀ p value, input ≠ .maxConnections p value)
    (noSweep : ∀ p, input ≠ .checkInactivity p)
    (accepted : accept input stack.head? w = some outcome) :
    Reaches w outcome := by
  generalize stack.head? = top at accepted
  have quiet :
      ∀ {next : World},
        Still w next → Reaches w (.next next []) :=
    fun still => Reaches.next (full.has.still still) noReturn_nil
  have cancels :
      ∀ {next : World} (c : Nat) (error : Option ErrorCode),
        Still w next → Reaches w (next.cancel c error) :=
    fun c error still =>
      cancel_has c error (full.keys.quiet still.toQuiet) (full.has.still still)
  cases input with
  | edit r fields =>
      simp only [accept] at accepted
      split at accepted <;> cases accepted
      exact quiet (Still.of_setRequest
        (Quiet.setRequest w r _ (fun _ => rfl) permitted))
  | listen r =>
      cases top <;> simp only [accept, reduceCtorEq] at accepted
      cases accepted
      exact quiet (Still.of_setRequest
        (Quiet.setRequest w r _ (fun _ => rfl) fun _ => rfl))
  | newClient loop =>
      cases accepted
      obtain ⟨filled, moves⟩ := full.filled.newClient full.keys loop none
      exact Reaches.next (full.has.moves filled moves) noReturn_nil
  | clientRequest c r =>
      simp only [accept] at accepted
      split at accepted <;> cases accepted
      refine acceptedOn_has none _ permitted.2
        ((clientRequest_has full permitted.1).imp ?_ (fun _ => id)
          (fun _ => id))
      exact fun next has => ⟨has, by simp⟩
  | poolRequest p r =>
      cases accepted
      exact acceptedOn_has _ _ permitted.1.2
        (poolRequest_has full.keys full.has)
  | agentRequest a r contextUri topLevel =>
      cases accepted
      exact acceptedOn_has _ _ permitted.1.2
        (agentRequest_has full permitted.1)
  | cancel r error =>
      cases accepted
      unfold requestCancel
      dsimp only
      split
      · exact cancels _ error (Still.refl w)
      · exact cancelRequest_has _ r error full.keys full.has
      · exact quiet (Still.refl w)
  | clientCancel c error =>
      cases accepted
      exact cancels c error (Still.refl w)
  | sendChunk r data =>
      cases accepted
      refine requestSend_has r fun c => ?_
      split
      · exact quiet (Still.refl w)
      · exact quiet (Still.write w c _)
  | sendFinalChunk r data =>
      cases accepted
      refine requestSend_has r fun c => quiet ?_
      refine Still.trans ?_ (Still.write _ c _)
      exact Still.setLibrary w r _ rfl rfl
  | maxConnections p value =>
      exact (constant p value rfl).elim
  | advance loop milliseconds =>
      cases top <;> simp only [accept, reduceCtorEq] at accepted
      cases accepted
      exact quiet
        ⟨⟨fun _ => rfl, rfl, fun _ => Or.inl rfl, fun _ => rfl, fun _ => rfl,
          fun _ _ _ => rfl, fun _ _ => rfl⟩, fun _ => rfl, fun _ => rfl,
          fun _ => rfl⟩
  | onConnect c error =>
      cases top <;> simp only [accept, reduceCtorEq] at accepted
      split at accepted
      · cases error with
        | none =>
            cases accepted
            exact quiet (Still.setTcp w c _)
        | some error =>
            cases accepted
            exact cancels c _ (Still.setTcp w c _)
      · cases accepted
  | onWrite c error =>
      cases top <;> simp only [accept, reduceCtorEq] at accepted
      split at accepted
      · cases error with
        | none =>
            cases accepted
            exact quiet (Still.setTcp w c _)
        | some error =>
            cases accepted
            exact cancels c _ (Still.setTcp w c _)
      · cases accepted
  | onRead c buf =>
      cases top <;> simp only [accept, reduceCtorEq] at accepted
      split at accepted
      · cases accepted
        have counted : Still w { w with nextBuffer := w.nextBuffer + 1 } :=
          ⟨⟨fun _ => rfl, rfl, fun _ => Or.inl rfl, fun _ => rfl, fun _ => rfl,
            fun _ _ _ => rfl, fun _ _ => rfl⟩, fun _ => rfl, fun _ => rfl,
            fun _ => rfl⟩
        exact Reaches.next
          ((full.has.still counted).still (Still.emit _ rfl))
          (by simp [NoReturn])
      · cases accepted
  | onReadError c error =>
      cases top <;> simp only [accept, reduceCtorEq] at accepted
      split at accepted <;> cases accepted
      exact cancels c _ (Still.refl w)
  | onEof c error response =>
      cases top <;> simp only [accept, reduceCtorEq] at accepted
      split at accepted <;> cases accepted
      rename_i connection _ _ _
      have ended :
          Still w
            ((w.setTcp c
              { (w.clients c).tcp with
                eof := true
                status := if w.config.eofDisconnects then .ended else .connected
              }).emit (.ended c connection)) :=
        (Still.setTcp w c _).trans (Still.emit _ rfl)
      exact onEof_has c error response (full.keys.quiet ended.toQuiet)
        (full.has.still ended)
  | onTimer r =>
      cases top <;> simp only [accept, reduceCtorEq] at accepted
      split at accepted
      · cases accepted
      · split at accepted
        · cases accepted
        · split at accepted <;> cases accepted
          exact fireTimer_has r _ full
  | streamData r item data =>
      cases top <;> simp only [accept, reduceCtorEq] at accepted
      split at accepted <;> cases accepted
      exact quiet (Still.write w _ _)
  | streamFinish r item error =>
      cases top <;> simp only [accept, reduceCtorEq] at accepted
      split at accepted <;> cases accepted
      have stopped := Still.setLibrary w r
        { w.requests r with
          streaming := Function.update (w.requests r).streaming item
            { (w.requests r).streaming item with running := false } }
        rfl rfl
      exact formFileComplete_has _ error (full.keys.quiet stopped.toQuiet)
        (full.has.still stopped)
  | checkInactivity p =>
      exact (noSweep p rfl).elim

/-- Unwinding adds no return to a queue. -/
theorem Returns.unwind
    {w : World}
    {stack : List Frame}
    (returns : w.Returns stack) :
    w.Returns (machine.unwind stack) := by
  induction stack with
  | nil =>
      exact returns
  | cons frame rest inductionHypothesis =>
      have below : w.Returns rest := fun p key ticket generation member =>
        returns p key ticket generation (List.mem_cons_of_mem _ member)
      unfold CallMachine.Machine.unwind
      split
      · exact returns
      · split
        · rename_i frames handles
          intro p key ticket generation member
          refine (List.mem_append.mp member).elim ?_
            (below p key ticket generation)
          intro isHandler
          cases frame <;> simp only [machine, handler, reduceCtorEq,
            Option.some.injEq] at handles
          subst handles
          simp at isHandler
        · exact inductionHypothesis below

theorem preserves_full :
    machine.Preserves KeepsCapacity
      (fun w stack => Full w ∧ w.Returns stack) where
  tick := by
    rintro frame rest w next frames _ permitted ⟨full, returns⟩ executed
    have keys := code_keys full.keys permitted.keepsLocations
    obtain ⟨has, newReturns⟩ :=
      code_has full permitted.keepsLocations returns next frames executed
    have executed : code frame w = .next next frames := executed
    rw [executed] at keys
    refine ⟨⟨keys, has.filled, has.pending⟩, ?_⟩
    intro p key ticket generation member
    refine (List.mem_append.mp member).elim
      (newReturns p key ticket generation) ?_
    intro below
    exact has.settled
      (returns p key ticket generation (List.mem_cons_of_mem _ below))
  tickRaise := by
    rintro frame rest w next _ permitted ⟨full, returns⟩ executed
    have below : w.Returns rest := fun p key ticket generation member =>
      returns p key ticket generation (List.mem_cons_of_mem _ member)
    have executed : code frame w = .raise next := executed
    have rethrows : frame = .rethrow := by
      by_contra different
      exact permitted.noThrow ⟨frame, rest, next, rfl, different, executed⟩
    subst rethrows
    cases executed
    exact ⟨full, below.unwind⟩
  ret := by
    rintro frame rest w _ ⟨full, returns⟩
    exact ⟨full, fun p key ticket generation member =>
      returns p key ticket generation (List.mem_cons_of_mem _ member)⟩
  throw := by
    rintro frame rest w _ _ _ ⟨full, returns⟩
    have below : w.Returns rest := fun p key ticket generation member =>
      returns p key ticket generation (List.mem_cons_of_mem _ member)
    exact ⟨full, below.unwind⟩
  input := by
    rintro input stack w next frames _ permitted ⟨full, returns⟩ accepted
    have accepted : accept input stack.head? w = some (.next next frames) :=
      accepted
    by_cases sweeps : ∃ p, input = .checkInactivity p
    · obtain ⟨p, rfl⟩ := sweeps
      cases stack with
      | cons frame rest =>
          simp [accept] at accepted
      | nil =>
          simp only [List.head?_nil, accept, Option.ite_none_left_eq_some,
            Option.some.injEq] at accepted
          obtain ⟨_, ⟨⟩⟩ := accepted
          exact ⟨full.checkInactivity p, noReturn_nil.returns _⟩
    · obtain ⟨has, newReturns⟩ :=
        accept_has full permitted.keepsLocations
          (fun p value isLimit => permitted.constant p value (by rw [isLimit]))
          (fun p isSweep => sweeps ⟨p, isSweep⟩) accepted next frames rfl
      refine ⟨⟨accept_keys full.keys permitted.keepsLocations accepted,
        has.filled, has.pending⟩, ?_⟩
      intro p key ticket generation member
      exact (List.mem_append.mp member).elim
        (newReturns p key ticket generation)
        fun below => has.settled (returns p key ticket generation below)
  inputRaise := by
    rintro input stack w next _ permitted _ accepted
    exact (permitted.noThrow ⟨next, accepted⟩).elim

/-! ## The property holds -/

theorem Full.placed
    {w : World}
    {r p : Nat}
    (full : Full w)
    (submitted : submission r w.trace = some (some p)) :
    w.QueuedOnce p r ∨ w.ActiveOnce p r := by
  have keys := full.keys
  rcases full.pending r p submitted (by simp) with
    ⟨key, entry, member, waits⟩ | ⟨c, active, inPool⟩
  · have isWaiting : w.Waits p key r := ⟨entry, member, waits⟩
    refine Or.inl
      ⟨fun active => keys.apart r active ⟨p, key, isWaiting⟩, key, entry,
        member, ?_, ?_⟩
    · exact List.count_eq_one_of_mem (keys.queueOnce p key entry member) waits
    · intro pool other waitsThere
      have sameKey : other = key :=
        (keys.key pool other r waitsThere).symm.trans (keys.key p key r isWaiting)
      subst sameKey
      exact ⟨keys.queueHome pool p other r waitsThere isWaiting, rfl⟩
  · refine Or.inr
      ⟨keys.apart r ⟨c, active⟩, c, active, keys.active c r p active inPool, ?_⟩
    intro other activeThere
    exact Option.some.inj
      ((keys.linked other r activeThere).symm.trans (keys.linked c r active))

theorem Full.capacity {w : World} (full : Full w) : Capacity w where
  fits p key entry member := by
    have sized := full.filled.sized p key entry member
    refine ⟨full.keys.freeOnce p key entry member, sized.busyOnce, ?_,
      sized.bound, sized.saturated⟩
    intro c isFree isBusy
    have runs := full.filled.runs p key c ⟨entry, member, isBusy⟩ (by simp)
    rw [full.keys.free p key c ⟨entry, member, isFree⟩] at runs
    cases runs
  runs p key c isBusy := full.filled.runs p key c isBusy (by simp)
  swept p key entry member waits := by
    have busy : entry.busy ≠ [] := by
      have positive :=
        ((full.filled.sized p key entry member).saturated waits).2
      intro empty
      simp [empty] at positive
    obtain ⟨kept, isKept, _⟩ := checkInactivity_kept p member busy
    rw [isKept]
    simp
  placed _ _ submitted := full.placed submitted

theorem full_of_fresh {w : World} (fresh : Fresh w) : Full w where
  keys := keys_of_fresh fresh
  filled :=
    { sized := by simp [fresh.pools]
      runs := by
        rintro p key c ⟨entry, member, _⟩
        simp [fresh.pools] at member }
  pending := by
    intro r p submitted
    simp [fresh.trace, submission, ongoing] at submitted

/-- A pool with one client runs a request while another one waits. -/
def waitsForAnswer : List Label :=
  [.input (.edit 0 { uri := some { scheme := "http", host := "here" } }),
    .input (.edit 1 { uri := some { scheme := "http", host := "here" } }),
    .input (.poolRequest 0 0),
    .input (.poolRequest 0 1),
    .input (.onConnect 0 none),
    .input (.onRead 0 [.done { code := 200 }]),
    .tick]

end UniEventHttp.ClientSide.World
