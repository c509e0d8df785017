import UniEventHttp.Ledger
import UniEventHttp.ClientCapacity
import UniEventHttp.ClientCancelling
import UniEventHttp.ClientIsolation
import UniEventHttp.ClientNotices

namespace UniEventHttp.ClientSide.World

/-!
# Every submission ends once

A submission that has been accepted is kept by a client or by a place in a queue
until it ends, and it ends once: whatever clients, pools, redirects and
cancellations do with a request, as many of its submissions have been accepted as
have ended or are kept.  A place whose request has been cancelled stays in the
queue until the callbacks of the request have returned, and does not count.
-/

/-! ## The accounts -/

/-- Who keeps a submission of a request: a client, or a place in a queue. -/
inductive Keeper where
  | client (client : Nat)
  | place (pool : Nat) (netloc : NetLoc) (ticket : Nat)
  deriving DecidableEq

/-- The keeper keeps the request; a place that is to be erased keeps nothing. -/
def Holds
    (w : World)
    (erased : List (Nat × NetLoc × Nat))
    (r : Nat) :
    Keeper → Prop
  | .client c => (w.clients c).request = some r
  | .place p key ticket =>
      (p, key, ticket) ∉ erased ∧
        { ticket := ticket, req := r } ∈ w.queueOf p key

/-- A submission of the request is accepted. -/
def isAcceptance (r : Nat) : Event → Bool
  | .accepted s _ _ _ _ => s == r
  | _ => false

/-- The submissions that have been accepted, and those that are being offered. -/
def credit (w : World) (offered : List Nat) (r : Nat) : Nat :=
  w.trace.countP (isAcceptance r) + offered.count r

/-- The submissions that have ended, and those that the code has in its hands. -/
def debit (w : World) (loose : List Nat) (r : Nat) : Nat :=
  w.trace.count (.finished r) + loose.count r

/-- The accounts of all requests are balanced. -/
def Booked
    (w : World)
    (erased : List (Nat × NetLoc × Nat))
    (offered loose : List Nat) :
    Prop :=
  Ledger.Balanced (w.credit offered) (w.debit loose) (Holds w erased)

/-- A place that is to be erased has left its queue, or is to be erased twice. -/
def Astray (w : World) (erased : List (Nat × NetLoc × Nat)) : Prop :=
  ¬ erased.Nodup ∨
    ∃ p key ticket,
      (p, key, ticket) ∈ erased ∧
        ∃ entry ∈ (w.pools p).clients key,
          ticket < entry.nextTicket ∧
            ∀ place ∈ entry.queue, place.ticket ≠ ticket

/-- What is astray stays astray while no list is dropped. -/
theorem Astray.lists
    {w next : World}
    {erased : List (Nat × NetLoc × Nat)}
    (astray : Astray w erased)
    (lists : Lists w next) :
    Astray next erased := by
  rcases astray with twice | ⟨p, key, ticket, member, entry, present, issued, gone⟩
  · exact Or.inl twice
  · obtain ⟨new, isNew, later, queue⟩ := lists p key entry present
    refine Or.inr ⟨p, key, ticket, member, new, isNew, issued.trans_le later, ?_⟩
    intro place isPlace isTicket
    rcases queue place isPlace with old | newer
    · exact gone place old isTicket
    · omega

/-! ## The lists -/

/-- The places of a queue have different tickets, and a busy client serves it. -/
structure Numbered (_limit _count : Nat) (entry : NetLocList) : Prop where
  ticketOnce : (entry.queue.map Place.ticket).Nodup
  issued : ∀ place ∈ entry.queue, place.ticket < entry.nextTicket
  alive : entry.free ≠ [] ∨ entry.busy ≠ []
  waits : entry.queue ≠ [] → entry.busy ≠ []

theorem lasting_numbered : Lasting Numbered where
  first limit count :=
    { ticketOnce := List.nodup_nil
      issued := by simp
      alive := Or.inr (by simp)
      waits := fun queue => (queue rfl).elim }
  pops limit count entry place rest numbered queue := by
    have once := numbered.ticketOnce
    rw [queue, List.map_cons, List.nodup_cons] at once
    exact
      { ticketOnce := once.2
        issued := fun other member =>
          numbered.issued other (by rw [queue]; exact List.mem_cons_of_mem _ member)
        alive := numbered.alive
        waits := fun _ => numbered.waits (by simp [queue]) }
  frees limit count entry c numbered queue _ :=
    { ticketOnce := numbered.ticketOnce
      issued := numbered.issued
      alive := Or.inl (List.ne_nil_of_mem List.mem_insert_self)
      waits := fun isQueue => (isQueue queue).elim }
  takes limit count entry c numbered _ :=
    { ticketOnce := numbered.ticketOnce
      issued := numbered.issued
      alive := Or.inr (List.ne_nil_of_mem List.mem_insert_self)
      waits := fun _ => List.ne_nil_of_mem List.mem_insert_self }
  grows limit count entry numbered _ _ :=
    { ticketOnce := numbered.ticketOnce
      issued := numbered.issued
      alive := Or.inr (List.ne_nil_of_mem List.mem_insert_self)
      waits := fun _ => List.ne_nil_of_mem List.mem_insert_self }
  enqueues limit count entry r numbered noneFree _ := by
    refine ⟨?_, ?_, numbered.alive, fun _ =>
      numbered.alive.resolve_left fun isFree => isFree noneFree⟩
    · simp only [List.map_append, List.map_cons, List.map_nil]
      refine List.nodup_append.mpr ⟨numbered.ticketOnce, by simp, ?_⟩
      intro ticket member other isNew
      obtain ⟨place, isPlace, rfl⟩ := List.mem_map.mp member
      rw [List.mem_singleton.mp isNew]
      exact (numbered.issued place isPlace).ne
    · intro place member
      rcases List.mem_append.mp member with old | isNew
      · exact (numbered.issued place old).trans (Nat.lt_succ_self _)
      · rw [List.mem_singleton.mp isNew]
        exact Nat.lt_succ_self _
  erases limit count entry index generation numbered :=
    { ticketOnce :=
        numbered.ticketOnce.sublist ((List.eraseIdx_sublist _ _).map _)
      issued := fun place member =>
        numbered.issued place ((List.eraseIdx_sublist _ _).subset member)
      alive := numbered.alive
      waits := fun queue => numbered.waits fun nobody => queue (by simp [nobody]) }
  sweeps limit count entry free numbered _ alive :=
    { ticketOnce := numbered.ticketOnce
      issued := numbered.issued
      alive := alive numbered.alive
      waits := numbered.waits }
  later _ _ _ numbered :=
    ⟨numbered.ticketOnce, numbered.issued, numbered.alive, numbered.waits⟩

/-! ## Pieces of code -/

/--
The accounts of a state in which the code has some requests in its hands, and
what they rest on.
-/
structure InOrder
    (w : World)
    (erased : List (Nat × NetLoc × Nat))
    (offered loose : List Nat) :
    Prop where
  linked : Linked w
  introduced : Introduced w
  named : Everywhere Named w
  numbered : Everywhere Numbered w
  /-- The places that are to be erased have been in their queues. -/
  issued :
    ∀ p key ticket,
      (p, key, ticket) ∈ erased →
      ∃ entry ∈ (w.pools p).clients key, ticket < entry.nextTicket
  books : Astray w erased ∨ Booked w erased offered loose

/-- Nothing changes that the accounts are about. -/
structure Agrees (w next : World) : Prop where
  nextClient : next.nextClient = w.nextClient
  clients : ∀ p, (next.pools p).clients = (w.pools p).clients
  request : ∀ c, (next.clients c).request = (w.clients c).request
  link : ∀ r, (next.requests r).client = (w.requests r).client
  accepted :
    ∀ r, next.trace.countP (isAcceptance r) = w.trace.countP (isAcceptance r)
  finished : ∀ r, next.trace.count (.finished r) = w.trace.count (.finished r)

/-- Observations that begin and end no submission are in no account. -/
theorem counts_of_events
    {w next : World}
    {events : List Event}
    (trace : next.trace = w.trace ++ events)
    (keeps : ∀ event ∈ events, keepsSubmissions event = true)
    (r : Nat) :
    next.trace.countP (isAcceptance r) = w.trace.countP (isAcceptance r) ∧
      next.trace.count (.finished r) = w.trace.count (.finished r) := by
  rw [trace, List.countP_append, List.count_append, Nat.add_eq_left,
    Nat.add_eq_left, List.countP_eq_zero, List.count_eq_zero]
  refine ⟨fun event member accepts => ?_, fun member => ?_⟩
  · have kept := keeps event member
    unfold isAcceptance at accepts
    split at accepts
    · cases kept
    · cases accepts
  · cases keeps _ member

theorem Agrees.of_events
    {w next : World}
    {events : List Event}
    (nextClient : next.nextClient = w.nextClient)
    (clients : ∀ p, (next.pools p).clients = (w.pools p).clients)
    (request : ∀ c, (next.clients c).request = (w.clients c).request)
    (link : ∀ r, (next.requests r).client = (w.requests r).client)
    (trace : next.trace = w.trace ++ events)
    (keeps : ∀ event ∈ events, keepsSubmissions event = true) :
    Agrees w next where
  nextClient := nextClient
  clients := clients
  request := request
  link := link
  accepted r := (counts_of_events trace keeps r).1
  finished r := (counts_of_events trace keeps r).2

theorem keepsSubmissions_of_minor
    {event : Event}
    (minor : isMinor event = true) :
    keepsSubmissions event = true := by
  cases event <;> first | rfl | cases minor

theorem Agrees.of_tunes
    {w next : World}
    (tunes : Tunes w next) :
    Agrees w next := by
  obtain ⟨events, trace, minor⟩ := tunes.trace
  exact .of_events tunes.nextClient (fun p => by rw [tunes.pools]) tunes.request
    tunes.link trace fun event member =>
      keepsSubmissions_of_minor (minor event member)

theorem queueOf_of_clients
    {w next : World}
    {p : Nat}
    (clients : (next.pools p).clients = (w.pools p).clients)
    (key : NetLoc) :
    next.queueOf p key = w.queueOf p key := by
  unfold queueOf
  rw [clients]

/-- The keepers depend on the requests of the clients and on the queues. -/
theorem holds_congr
    {w next : World}
    (request : ∀ c, (next.clients c).request = (w.clients c).request)
    (queues : ∀ p key, next.queueOf p key = w.queueOf p key)
    (erased : List (Nat × NetLoc × Nat))
    (r : Nat)
    (keeper : Keeper) :
    Holds next erased r keeper ↔ Holds w erased r keeper := by
  cases keeper with
  | client c => simp only [Holds, request]
  | place p key ticket => simp only [Holds, queues]

namespace InOrder

variable {w next : World}
variable {erased : List (Nat × NetLoc × Nat)}
variable {offered loose : List Nat}

theorem agrees
    (order : InOrder w erased offered loose)
    (same : Agrees w next) :
    InOrder next erased offered loose where
  linked c r active := by
    rw [same.link]
    exact order.linked c r ((same.request c).symm.trans active)
  introduced := order.introduced.congr same.nextClient.ge fun c _ active =>
    Or.inl ((same.request c).symm.trans active)
  named p key entry member := by
    rw [same.clients] at member
    rw [same.nextClient]
    exact order.named p key entry member
  numbered p key entry member := by
    rw [same.clients] at member
    have before := order.numbered p key entry member
    exact ⟨before.ticketOnce, before.issued, before.alive, before.waits⟩
  issued p key ticket member := by
    rw [same.clients]
    exact order.issued p key ticket member
  books := by
    refine order.books.imp (fun astray => astray.lists (.of_eq same.clients)) ?_
    intro booked
    refine booked.congr (fun r => ?_) (fun r => ?_)
      (holds_congr same.request
        (fun p key => queueOf_of_clients (same.clients p) key) erased)
    · unfold credit
      rw [same.accepted]
    · unfold debit
      rw [same.finished]

theorem tunes
    (order : InOrder w erased offered loose)
    (tunes : Tunes w next) :
    InOrder next erased offered loose :=
  order.agrees (.of_tunes tunes)

/-- A client gives its request away. -/
theorem detached
    {c r : Nat}
    (order : InOrder w erased offered loose)
    (active : (w.clients c).request = some r) :
    InOrder (w.detached c) erased offered (r :: loose) where
  linked := order.linked.detached c
  introduced := order.introduced.detached c
  named := order.named.detached c
  numbered := order.numbered.detached c
  issued := order.issued
  books := by
    refine order.books.imp (fun astray => astray.lists (.of_eq fun _ => rfl)) ?_
    intro booked
    have held : Holds w erased r (.client c) := active
    refine booked.gives held (fun _ => rfl) (fun s => ?_) fun s keeper => ?_
    · have sameTrace : (w.detached c).trace = w.trace := rfl
      simp only [debit, sameTrace, List.count_cons, beq_iff_eq,
        eq_comm (a := r), Nat.add_assoc]
    · cases keeper with
      | client d =>
          by_cases here : d = c
          · subst here
            simp [Holds, World.detached, World.setClient, active, eq_comm]
          · simp [Holds, World.detached, World.setClient, here]
      | place p key ticket =>
          simp only [Holds, reduceCtorEq, and_false, not_false_eq_true, and_true]
          exact Iff.rfl

/-- The submission of a request that no client has ends. -/
theorem ending
    {r : Nat}
    (order : InOrder w erased offered (r :: loose))
    (idle : ∀ c, (w.clients c).request ≠ some r) :
    InOrder (w.ending r) erased offered loose where
  linked := order.linked.setRequest (Or.inr idle)
  introduced := order.introduced.ending r
  named := order.named.ending r
  numbered := order.numbered.ending r
  issued := order.issued
  books := by
    refine order.books.imp (fun astray => astray.lists (.of_eq fun _ => rfl)) ?_
    intro booked
    refine booked.congr (fun s => ?_) (fun s => ?_)
      (holds_congr (fun _ => rfl) (fun _ _ => rfl) erased)
    · simp [credit, World.ending, World.emit, World.setRequest, isAcceptance]
    · simp only [debit, World.ending, World.emit, World.setRequest,
        List.count_append, List.count_cons, List.count_nil, beq_iff_eq,
        Event.finished.injEq]
      omega

/-- A redirected request leaves its client. -/
theorem leaving
    {c r : Nat}
    (order : InOrder w erased offered loose)
    (active : (w.clients c).request = some r) :
    InOrder (w.leaving c r) erased offered (r :: loose) := by
  have detached := order.detached active
  refine
    { linked := order.linked.leaving active
      introduced := order.introduced.leaving c r
      named := order.named.leaving c r
      numbered := order.numbered.leaving c r
      issued := order.issued
      books := ?_ }
  exact detached.books.imp (fun astray => astray.lists (.of_eq fun _ => rfl))
    fun booked =>
      booked.congr (fun _ => rfl) (fun _ => rfl)
        (holds_congr (fun _ => rfl) (fun _ _ => rfl) erased)

/-- A client starts a request. -/
theorem started
    {c r : Nat}
    (order : InOrder w erased offered (r :: loose))
    (made : c < w.nextClient)
    (started : Started w c r next) :
    InOrder next erased offered loose := by
  have events := (Keeps.started started).trace
  obtain ⟨events, trace, kept⟩ := events
  have keeps : ∀ event ∈ events, keepsSubmissions event = true := by
    intro event member
    have turning := kept event member
    cases event <;> first | rfl | cases turning
  have counts := counts_of_events trace keeps
  have clients : ∀ p, (next.pools p).clients = (w.pools p).clients :=
    fun p => by rw [started.pools]
  refine
    { linked := order.linked.keeps (.started started)
      introduced := order.introduced.started made started
      named := order.named.apart started.toApart
      numbered := order.numbered.apart started.toApart
      issued := fun p key ticket member => by
        rw [clients]
        exact order.issued p key ticket member
      books := order.books.imp (fun astray => astray.lists (.of_eq clients)) ?_ }
  intro booked
  have free : ¬ Holds w erased r (.client c) := by
    simp [Holds, started.idle]
  refine booked.takes free (fun s => ?_) (fun s => ?_) fun s keeper => ?_
  · unfold credit
    rw [(counts s).1]
  · simp only [debit, (counts s).2, List.count_cons, beq_iff_eq,
      eq_comm (a := r), Nat.add_assoc]
  · cases keeper with
    | client d =>
        by_cases here : d = c
        · subst here
          simp [Holds, started.active, started.idle, eq_comm]
        · simp [Holds, started.clients d here, here]
    | place p key ticket =>
        simp only [Holds, queueOf_of_clients (clients p), reduceCtorEq,
          and_false, or_false]

/-- A call of `Client::request` is refused. -/
theorem refused
    {c r : Nat}
    (order : InOrder w erased offered loose)
    (refused : Refused w c r next) :
    InOrder next erased offered loose := by
  obtain ⟨exception, trace⟩ := refused.trace
  have counts := counts_of_events trace (by simp [keepsSubmissions])
  have clients : ∀ p, (next.pools p).clients = (w.pools p).clients :=
    fun p => by rw [refused.pools]
  have request : ∀ d, (next.clients d).request = (w.clients d).request := by
    intro d
    by_cases here : d = c
    · subst here
      obtain ⟨tcp, same⟩ := refused.client
      rw [same]
    · rw [refused.clients d here]
  refine
    { linked := order.linked.keeps (.refused refused)
      introduced := order.introduced.refused refused
      named := order.named.apart refused.toApart
      numbered := order.numbered.apart refused.toApart
      issued := fun p key ticket member => by
        rw [clients]
        exact order.issued p key ticket member
      books := order.books.imp (fun astray => astray.lists (.of_eq clients)) ?_ }
  intro booked
  refine booked.congr (fun s => ?_) (fun s => ?_)
    (holds_congr request (fun p key => queueOf_of_clients (clients p) key) erased)
  · unfold credit
    rw [(counts s).1]
  · unfold debit
    rw [(counts s).2]

/-- A new client has no request. -/
theorem newClient
    (order : InOrder w erased offered loose)
    (loop : Nat)
    (pool : Option Nat) :
    InOrder (w.newClient loop pool) erased offered loose := by
  have idle : (w.clients w.nextClient).request = none := by
    cases active : (w.clients w.nextClient).request with
    | none => rfl
    | some r => exact (Nat.lt_irrefl _ (order.introduced _ r active)).elim
  have request :
      ∀ d,
        ((w.newClient loop pool).clients d).request = (w.clients d).request := by
    intro d
    by_cases here : d = w.nextClient
    · subst here
      simp [World.newClient, World.setClient, idle]
    · simp [World.newClient, World.setClient, here]
  refine
    { linked := fun c r active => order.linked c r ((request c).symm.trans active)
      introduced := order.introduced.newClient loop pool
      named := order.named.newClient lasting_named loop pool
      numbered := order.numbered.newClient lasting_numbered loop pool
      issued := order.issued
      books := ?_ }
  exact order.books.imp (fun astray => astray.lists (.of_eq fun _ => rfl))
    fun booked =>
      booked.congr (fun _ => rfl) (fun _ => rfl)
        (holds_congr request (fun _ _ => rfl) erased)

/-- A list is replaced by one with the same queue. -/
theorem relisted
    {p : Nat}
    {key : NetLoc}
    {new : NetLocList}
    (order : InOrder w erased offered loose)
    (named : Named (w.pools p).maxConnections w.nextClient new)
    (numbered : Numbered (w.pools p).maxConnections w.nextClient new)
    (queue : w.queueOf p key = new.queue)
    (later :
      ∀ entry ∈ (w.pools p).clients key, entry.nextTicket ≤ new.nextTicket) :
    InOrder (w.setEntry p key (some new)) erased offered loose := by
  have lists : Lists w (w.setEntry p key (some new)) := by
    refine Lists.setEntry fun entry present => ⟨later entry present, ?_⟩
    intro place member
    rw [← queue, queueOf_some present] at member
    exact Or.inl member
  refine
    { linked := order.linked
      introduced := order.introduced.setEntry p key _
      named := order.named.setEntry named
      numbered := order.numbered.setEntry numbered
      issued := fun q other ticket member => ?_
      books := order.books.imp (fun astray => astray.lists lists) fun booked => ?_ }
  · obtain ⟨entry, present, below⟩ := order.issued q other ticket member
    obtain ⟨replaced, isNew, grown, _⟩ := lists q other entry present
    exact ⟨replaced, isNew, below.trans_le grown⟩
  · have queues :
        ∀ q other,
          (w.setEntry p key (some new)).queueOf q other = w.queueOf q other := by
      intro q other
      rw [queueOf_setEntry]
      split
      · rename_i same
        rw [same.1, same.2, queue]
      · rfl
    have requests :
        ∀ c,
          ((w.setEntry p key (some new)).clients c).request =
            (w.clients c).request :=
      fun _ => rfl
    exact booked.congr (fun _ => rfl) (fun _ => rfl)
      (holds_congr requests queues erased)

/-- The first place of a queue gives its request away. -/
theorem popped
    {p : Nat}
    {key : NetLoc}
    {entry : NetLocList}
    {place : Place}
    {rest : List Place}
    (order : InOrder w erased offered loose)
    (present : (w.pools p).clients key = some entry)
    (queue : entry.queue = place :: rest) :
    InOrder (w.setEntry p key (some { entry with queue := rest })) erased offered
      (place.req :: loose) := by
  have before := order.numbered p key entry present
  have once := before.ticketOnce
  rw [queue, List.map_cons, List.nodup_cons] at once
  have others : ∀ other ∈ rest, other.ticket ≠ place.ticket := by
    intro other member same
    exact once.1 (List.mem_map.mpr ⟨other, member, same⟩)
  have lists :
      Lists w (w.setEntry p key (some { entry with queue := rest })) := by
    refine Lists.setEntry fun old isOld => ?_
    rw [Option.mem_def, present] at isOld
    cases isOld
    refine ⟨le_rfl, fun other member => Or.inl ?_⟩
    rw [queue]
    exact List.mem_cons_of_mem _ member
  refine
    { linked := order.linked
      introduced := order.introduced.setEntry p key _
      named := order.named.setEntry
        (lasting_named.pops _ _ _ _ _ (order.named p key entry present) queue)
      numbered := order.numbered.setEntry
        (lasting_numbered.pops _ _ _ _ _ before queue)
      issued := fun q other ticket member => ?_
      books := ?_ }
  · obtain ⟨old, isOld, below⟩ := order.issued q other ticket member
    obtain ⟨new, isNew, grown, _⟩ := lists q other old isOld
    exact ⟨new, isNew, below.trans_le grown⟩
  · by_cases marked : (p, key, place.ticket) ∈ erased
    · refine Or.inl (Or.inr ⟨p, key, place.ticket, marked,
        { entry with queue := rest }, ?_, ?_, others⟩)
      · rw [setEntry_clients, if_pos ⟨rfl, rfl⟩]
        rfl
      · exact before.issued place (by rw [queue]; exact List.mem_cons_self)
    · refine order.books.imp (fun astray => astray.lists lists) fun booked => ?_
      have waits : w.queueOf p key = place :: rest := by
        rw [queueOf_some present, queue]
      have held : Holds w erased place.req (.place p key place.ticket) := by
        refine ⟨marked, ?_⟩
        rw [waits]
        exact List.mem_cons_self
      refine booked.gives held (fun _ => rfl) (fun s => ?_) fun s keeper => ?_
      · have sameTrace :
            (w.setEntry p key (some { entry with queue := rest })).trace =
              w.trace :=
          rfl
        simp only [debit, sameTrace, List.count_cons, beq_iff_eq,
          eq_comm (a := place.req), Nat.add_assoc]
      · cases keeper with
        | client c =>
            simp only [Holds, reduceCtorEq, and_false, not_false_eq_true,
              and_true]
            exact Iff.rfl
        | place q other ticket =>
            simp only [Holds, queueOf_setEntry, Keeper.place.injEq, and_assoc]
            refine and_congr_right fun _ => ?_
            split
            · rename_i same
              obtain ⟨rfl, rfl⟩ := same
              rw [waits]
              constructor
              · intro member
                exact ⟨List.mem_cons_of_mem _ member, fun isFirst =>
                  others _ member isFirst.2.2.2⟩
              · rintro ⟨member, notFirst⟩
                refine (List.mem_cons.mp member).resolve_left fun isFirst => ?_
                subst isFirst
                exact notFirst ⟨rfl, rfl, rfl, rfl⟩
            · rename_i different
              refine (and_iff_left ?_).symm
              rintro ⟨_, samePool, sameKey, _⟩
              exact different ⟨samePool, sameKey⟩

/-- A request is put into a queue. -/
theorem enqueued
    {p r : Nat}
    {key : NetLoc}
    {entry : NetLocList}
    (order : InOrder w erased offered (r :: loose))
    (present : (w.pools p).clients key = some entry)
    (noneFree : entry.free = [])
    (full : (w.pools p).maxConnections ≤ entry.busy.length) :
    InOrder (w.enqueue p r key entry) erased offered loose := by
  have before := order.numbered p key entry present
  have waits := queueOf_some present
  generalize isNew :
    { entry with
      queue := entry.queue ++ [(⟨entry.nextTicket, r⟩ : Place)]
      generation := entry.generation + 1
      nextTicket := entry.nextTicket + 1 } = new
  have queue :
      new.queue = entry.queue ++ [{ ticket := entry.nextTicket, req := r }] := by
    rw [← isNew]
  have lists : Lists w (w.setEntry p key (some new)) := by
    refine Lists.setEntry fun old isOld => ?_
    rw [Option.mem_def, present] at isOld
    cases isOld
    rw [queue, ← isNew]
    refine ⟨Nat.le_succ _, fun place member => ?_⟩
    refine (List.mem_append.mp member).imp id fun isLast => ?_
    rw [List.mem_singleton.mp isLast]
  have unmarked : (p, key, entry.nextTicket) ∉ erased := by
    intro marked
    obtain ⟨old, isOld, below⟩ := order.issued p key _ marked
    rw [Option.mem_def, present] at isOld
    cases isOld
    exact Nat.lt_irrefl _ below
  have listed : InOrder (w.setEntry p key (some new)) erased offered loose := by
    refine
      { linked := order.linked
        introduced := order.introduced.setEntry p key _
        named := order.named.setEntry ?_
        numbered := order.numbered.setEntry ?_
        issued := fun q other ticket member => ?_
        books := order.books.imp (fun astray => astray.lists lists) fun booked => ?_ }
    · rw [← isNew]
      exact lasting_named.enqueues _ _ _ r (order.named p key entry present)
        noneFree full
    · rw [← isNew]
      exact lasting_numbered.enqueues _ _ _ r before noneFree full
    · obtain ⟨old, isOld, below⟩ := order.issued q other ticket member
      obtain ⟨grown, isGrown, more, _⟩ := lists q other old isOld
      exact ⟨grown, isGrown, below.trans_le more⟩
    · have free : ¬ Holds w erased r (.place p key entry.nextTicket) := by
        rintro ⟨_, member⟩
        rw [waits] at member
        exact Nat.lt_irrefl _ (before.issued _ member)
      refine booked.takes free (fun _ => rfl) (fun s => ?_) fun s keeper => ?_
      · have sameTrace : (w.setEntry p key (some new)).trace = w.trace := rfl
        simp only [debit, sameTrace, List.count_cons, beq_iff_eq,
          eq_comm (a := r), Nat.add_assoc]
      · cases keeper with
        | client c =>
            simp only [Holds, reduceCtorEq, and_false, or_false]
            exact Iff.rfl
        | place q other ticket =>
            simp only [Holds, queueOf_setEntry, Keeper.place.injEq]
            by_cases same : q = p ∧ other = key
            · obtain ⟨rfl, rfl⟩ := same
              simp only [and_self, ↓reduceIte, true_and, queue, waits,
                List.mem_append, List.mem_singleton, Place.mk.injEq]
              constructor
              · rintro ⟨notMarked, old | ⟨isTicket, isRequest⟩⟩
                · exact Or.inl ⟨notMarked, old⟩
                · exact Or.inr ⟨isRequest, isTicket⟩
              · rintro (⟨notMarked, old⟩ | ⟨isRequest, rfl⟩)
                · exact ⟨notMarked, Or.inl old⟩
                · exact ⟨unmarked, Or.inr ⟨rfl, isRequest⟩⟩
            · rw [if_neg same]
              refine (or_iff_left ?_).symm
              rintro ⟨_, samePool, sameKey, _⟩
              exact same ⟨samePool, sameKey⟩
  unfold World.enqueue
  dsimp only
  rw [isNew]
  refine listed.agrees (.of_events rfl (fun _ => rfl) (fun _ => rfl) (fun s => ?_)
    rfl (by simp [keepsSubmissions]))
  by_cases here : s = r
  · subst here
    simp only [World.emit, World.setRequest, World.setEntry,
      Function.update_self]
    rw [ensureTimerActive_eq]
  · simp [World.emit, World.setRequest, World.setEntry, here]

/-- A request that waits is to be erased from its place. -/
theorem marked
    {p : Nat}
    {key : NetLoc}
    {entry : NetLocList}
    {place : Place}
    (order : InOrder w erased offered loose)
    (present : (w.pools p).clients key = some entry)
    (member : place ∈ entry.queue) :
    InOrder w ((p, key, place.ticket) :: erased) offered (place.req :: loose) := by
  have before := order.numbered p key entry present
  refine
    { linked := order.linked
      introduced := order.introduced
      named := order.named
      numbered := order.numbered
      issued := fun q other ticket isMarked => ?_
      books := ?_ }
  · rcases List.mem_cons.mp isMarked with isPlace | earlier
    · cases isPlace
      exact ⟨entry, present, before.issued place member⟩
    · exact order.issued q other ticket earlier
  · rcases order.books with (twice | ⟨q, other, ticket, earlier, gone⟩) | booked
    · exact Or.inl (Or.inl fun once => twice (List.nodup_cons.mp once).2)
    · exact Or.inl
        (Or.inr ⟨q, other, ticket, List.mem_cons_of_mem _ earlier, gone⟩)
    · by_cases again : (p, key, place.ticket) ∈ erased
      · exact Or.inl (Or.inl fun once => (List.nodup_cons.mp once).1 again)
      · refine Or.inr ?_
        have held : Holds w erased place.req (.place p key place.ticket) := by
          refine ⟨again, ?_⟩
          rw [queueOf_some present]
          exact member
        refine booked.gives held (fun _ => rfl) (fun s => ?_) fun s keeper => ?_
        · simp only [debit, List.count_cons, beq_iff_eq,
            eq_comm (a := place.req), Nat.add_assoc]
        · cases keeper with
          | client c =>
              simp [Holds]
          | place q other ticket =>
              simp only [Holds, List.mem_cons, Prod.mk.injEq, not_or,
                Keeper.place.injEq]
              constructor
              · rintro ⟨⟨notPlace, notEarlier⟩, waits⟩
                exact ⟨⟨notEarlier, waits⟩, fun same => notPlace same.2⟩
              · rintro ⟨⟨notEarlier, waits⟩, notPlace⟩
                refine ⟨⟨?_, notEarlier⟩, waits⟩
                rintro ⟨rfl, rfl, rfl⟩
                rw [queueOf_some present] at waits
                have same :=
                  List.inj_on_of_nodup_map before.ticketOnce waits member rfl
                exact notPlace ⟨by rw [← same], rfl, rfl, rfl⟩

/-- A place is erased, after the callbacks of its request have returned. -/
theorem erases
    {p : Nat}
    {key : NetLoc}
    {ticket generation : Nat}
    {entry : NetLocList}
    (order : InOrder w ((p, key, ticket) :: erased) offered loose)
    (present : (w.pools p).clients key = some entry)
    (inside :
      entry.queue.findIdx (fun place => place.ticket == ticket) <
        entry.queue.length) :
    InOrder
      (w.setEntry p key
        (some
          { entry with
            queue :=
              entry.queue.eraseIdx
                (entry.queue.findIdx fun place => place.ticket == ticket)
            generation := generation }))
      erased offered loose := by
  have before := order.numbered p key entry present
  have isIn : ticket ∈ entry.queue.map Place.ticket := by
    obtain ⟨place, member, isTicket⟩ := List.findIdx_lt_length.mp inside
    exact List.mem_map.mpr ⟨place, member, by simpa using isTicket⟩
  obtain ⟨front, place, back, queue, rfl, _, remaining⟩ := split_at_ticket isIn
  rw [remaining]
  have once := before.ticketOnce
  rw [queue, List.map_append, List.map_cons, List.nodup_middle,
    List.nodup_cons, ← List.map_append] at once
  have others : ∀ other ∈ front ++ back, other.ticket ≠ place.ticket := by
    intro other member same
    exact once.1 (List.mem_map.mpr ⟨other, member, same⟩)
  generalize isNew :
    { entry with queue := front ++ back, generation := generation } = new
  have newQueue : new.queue = front ++ back := by rw [← isNew]
  have newTicket : new.nextTicket = entry.nextTicket := by rw [← isNew]
  have lists : Lists w (w.setEntry p key (some new)) := by
    refine Lists.setEntry fun old isOld => ?_
    rw [Option.mem_def, present] at isOld
    cases isOld
    rw [newTicket, newQueue, queue]
    refine ⟨le_rfl, fun other member => Or.inl ?_⟩
    rcases List.mem_append.mp member with isFront | isBack
    · exact List.mem_append_left _ isFront
    · exact List.mem_append_right _ (List.mem_cons_of_mem _ isBack)
  refine
    { linked := order.linked
      introduced := order.introduced.setEntry p key _
      named := order.named.setEntry ?_
      numbered := order.numbered.setEntry ?_
      issued := fun q other mark member => ?_
      books := ?_ }
  · have kept :=
      lasting_named.erases _ _ _
        (entry.queue.findIdx fun other => other.ticket == place.ticket)
        generation (order.named p key entry present)
    rw [remaining, isNew] at kept
    exact kept
  · have kept :=
      lasting_numbered.erases _ _ _
        (entry.queue.findIdx fun other => other.ticket == place.ticket)
        generation before
    rw [remaining, isNew] at kept
    exact kept
  · obtain ⟨old, isOld, below⟩ :=
      order.issued q other mark (List.mem_cons_of_mem _ member)
    obtain ⟨grown, isGrown, more, _⟩ := lists q other old isOld
    exact ⟨grown, isGrown, below.trans_le more⟩
  · by_cases again : (p, key, place.ticket) ∈ erased
    · refine Or.inl (Or.inr ⟨p, key, place.ticket, again, new, ?_, ?_, ?_⟩)
      · rw [setEntry_clients, if_pos ⟨rfl, rfl⟩]
        rfl
      · rw [newTicket]
        refine before.issued place ?_
        rw [queue]
        exact List.mem_append_right _ List.mem_cons_self
      · rw [newQueue]
        exact others
    · rcases order.books with
        (twice | ⟨q, other, mark, member, old, isOld, below, gone⟩) | booked
      · refine Or.inl (Or.inl fun isOnce => twice ?_)
        exact List.nodup_cons.mpr ⟨again, isOnce⟩
      · rcases List.mem_cons.mp member with isPlace | earlier
        · cases isPlace
          rw [Option.mem_def, present] at isOld
          cases isOld
          obtain ⟨found, isFound, isTicket⟩ := List.mem_map.mp isIn
          exact (gone found isFound isTicket).elim
        · have astray : Astray w erased :=
            Or.inr ⟨q, other, mark, earlier, old, isOld, below, gone⟩
          exact Or.inl (astray.lists lists)
      · refine Or.inr
          (booked.congr (fun _ => rfl) (fun _ => rfl) fun s keeper => ?_)
        cases keeper with
        | client c =>
            exact Iff.rfl
        | place q other mark =>
            simp only [Holds, queueOf_setEntry, List.mem_cons, Prod.mk.injEq,
              not_or, and_assoc]
            split
            · rename_i same
              obtain ⟨rfl, rfl⟩ := same
              rw [newQueue, queueOf_some present, queue]
              simp only [true_and]
              constructor
              · rintro ⟨notEarlier, waits⟩
                refine ⟨others _ waits, notEarlier, ?_⟩
                rcases List.mem_append.mp waits with isFront | isBack
                · exact List.mem_append_left _ isFront
                · exact List.mem_append_right _ (List.mem_cons_of_mem _ isBack)
              · rintro ⟨notPlace, notEarlier, waits⟩
                refine ⟨notEarlier, ?_⟩
                rcases List.mem_append.mp waits with isFront | isRest
                · exact List.mem_append_left _ isFront
                · rcases List.mem_cons.mp isRest with isPlace | isBack
                  · exact (notPlace (by rw [← isPlace])).elim
                  · exact List.mem_append_right _ isBack
            · rename_i different
              refine ⟨fun both => ⟨?_, both⟩, fun all => all.2⟩
              rintro ⟨samePool, sameKey, _⟩
              exact different ⟨samePool, sameKey⟩

/-- Every list that somebody waits in survives a sweep. -/
theorem sweeps
    (order : InOrder w [] offered loose)
    (p : Nat) :
    InOrder (w.checkInactivity p) [] offered loose := by
  have deed : Deed w (.input (.checkInactivity p)) (w.checkInactivity p) :=
    .sweeps p
  have queues :
      ∀ q key, (w.checkInactivity p).queueOf q key = w.queueOf q key := by
    intro q key
    unfold queueOf
    cases kept : ((w.checkInactivity p).pools q).clients key with
    | some entry =>
        obtain ⟨old, isOld, free, rfl, _, _⟩ := checkInactivity_from kept
        rw [isOld]
        rfl
    | none =>
        cases present : (w.pools q).clients key with
        | none => rfl
        | some entry =>
            have numbered := order.numbered q key entry present
            by_contra nonempty
            have waits : entry.queue ≠ [] := fun nobody => nonempty (by
              simp [nobody])
            obtain ⟨new, isNew, _⟩ :=
              checkInactivity_kept p present (numbered.waits waits)
            rw [Option.mem_def, kept] at isNew
            cases isNew
  refine
    { linked := order.linked
      introduced := order.introduced
      named := order.named.deed lasting_named (fun _ _ _ _ _ _ named => named) deed
      numbered := order.numbered.deed lasting_numbered
        (fun _ _ _ _ _ _ numbered =>
          ⟨numbered.ticketOnce, numbered.issued, numbered.alive, numbered.waits⟩)
        deed
      issued := fun q key ticket member => by cases member
      books := ?_ }
  rcases order.books with (twice | ⟨q, key, ticket, member, _⟩) | booked
  · exact (twice List.nodup_nil).elim
  · cases member
  · have requests :
        ∀ c,
          ((w.checkInactivity p).clients c).request = (w.clients c).request :=
      fun _ => rfl
    exact Or.inr
      (booked.congr (fun _ => rfl) (fun _ => rfl) (holds_congr requests queues []))

/-- A request is offered: it is in the hands of the code until somebody takes it. -/
theorem offers
    (order : InOrder w erased offered loose)
    (r : Nat) :
    InOrder w erased (r :: offered) (r :: loose) where
  linked := order.linked
  introduced := order.introduced
  named := order.named
  numbered := order.numbered
  issued := order.issued
  books := by
    refine order.books.imp id fun booked => ?_
    refine (booked.passes fun s => if r = s then 1 else 0).congr (fun s => ?_)
      (fun s => ?_) fun _ _ => Iff.rfl
    · simp [credit, List.count_cons, Nat.add_assoc]
    · simp [debit, List.count_cons, Nat.add_assoc]

/-- The submission of a request that was offered is accepted. -/
theorem accepts
    {r : Nat}
    (order : InOrder w erased (r :: offered) loose)
    (pool : Option Nat)
    (loop time timeout : Nat) :
    InOrder (w.emit (.accepted r pool loop time timeout)) erased offered loose where
  linked := order.linked
  introduced := order.introduced.emit _
  named := order.named.emit _
  numbered := order.numbered.emit _
  issued := order.issued
  books := by
    refine order.books.imp (fun astray => astray.lists (.of_eq fun _ => rfl)) ?_
    intro booked
    refine booked.congr (fun s => ?_) (fun s => ?_) fun _ _ => Iff.rfl
    · by_cases same : r = s
      · subst same
        simp [credit, World.emit, isAcceptance, Nat.add_right_comm,
          Nat.add_assoc]
      · simp [credit, World.emit, isAcceptance, same]
    · simp [debit, World.emit]

/-- A client is given the next request of its queue, or becomes free. -/
theorem putsBack
    {p c : Nat}
    (order : InOrder w erased offered loose)
    (made : c < w.nextClient)
    (back : PutsBack w p c next) :
    InOrder next erased offered loose := by
  cases back with
  | starts present queue started =>
      exact (order.popped present queue).started made started
  | @frees entry present queue busy =>
      refine order.relisted
        (lasting_named.frees _ _ _ _ (order.named p _ entry present) queue busy)
        (lasting_numbered.frees _ _ _ _ (order.numbered p _ entry present) queue
          busy) (by rw [queueOf_some present]) fun old isOld => ?_
      rw [Option.mem_def, present] at isOld
      cases isOld
      exact le_rfl

/-- A pool finds a client for a request. -/
theorem places
    {p c : Nat}
    {key : NetLoc}
    (order : InOrder w erased offered loose)
    (places : Places w p key c next) :
    InOrder next erased offered loose ∧ c < next.nextClient := by
  cases places with
  | @creates entry found =>
      have made := order.newClient (w.pools p).loop (some p)
      refine ⟨made.relisted ?_ ?_ ?_ ?_, Nat.lt_succ_self _⟩
      · rcases found with ⟨_, rfl⟩ | ⟨present, noneFree, below⟩
        · exact lasting_named.first (w.pools p).maxConnections w.nextClient
        · exact lasting_named.grows _ _ _ (order.named p key entry present)
            noneFree below
      · rcases found with ⟨_, rfl⟩ | ⟨present, noneFree, below⟩
        · exact lasting_numbered.first (w.pools p).maxConnections w.nextClient
        · exact lasting_numbered.grows _ _ _
            (order.numbered p key entry present) noneFree below
      · change w.queueOf p key = entry.queue
        rcases found with ⟨absent, rfl⟩ | ⟨present, _, _⟩
        · simp [queueOf, absent]
        · exact queueOf_some present
      · intro old isOld
        change old ∈ (w.pools p).clients key at isOld
        rcases found with ⟨absent, rfl⟩ | ⟨present, _, _⟩
        · rw [Option.mem_def, absent] at isOld
          cases isOld
        · rw [Option.mem_def, present] at isOld
          cases isOld
          exact le_rfl
  | @reuses entry c present isFree =>
      have named := order.named p key entry present
      refine ⟨order.relisted
        (lasting_named.takes _ _ _ _ named isFree)
        (lasting_numbered.takes _ _ _ _ (order.numbered p key entry present)
          isFree) (by rw [queueOf_some present]) fun old isOld => ?_,
        named c (Or.inl isFree)⟩
      rw [Option.mem_def, present] at isOld
      cases isOld
      exact le_rfl

/-- A pool takes a request out of the hands of the code. -/
theorem pooled
    {p r : Nat}
    (order : InOrder w erased offered (r :: loose))
    (pooled : Pooled w p r next) :
    InOrder next erased offered loose := by
  cases pooled with
  | starts places started =>
      obtain ⟨placed, made⟩ := order.places places
      exact placed.started made started
  | queues present noneFree full =>
      exact order.enqueued present noneFree full

end InOrder

/-- The request is marked as taken, and no client has it. -/
structure Gone (w : World) (r : Nat) : Prop where
  taken : (w.requests r).client ≠ none
  idle : ∀ c, (w.clients c).request ≠ some r

section Gone

variable {w next : World} {r : Nat}

theorem Gone.tunes
    (gone : Gone w r)
    (tunes : Tunes w next) :
    Gone next r where
  taken := by
    rw [tunes.link]
    exact gone.taken
  idle c := by
    rw [tunes.request]
    exact gone.idle c

/-- It cannot be started, since it is still marked as taken. -/
theorem Gone.started
    {c s : Nat}
    (gone : Gone w r)
    (started : Started w c s next) :
    Gone next r := by
  have other : r ≠ s := by
    rintro rfl
    exact gone.taken started.unlinked
  refine ⟨by rw [started.requests r other]; exact gone.taken, fun d => ?_⟩
  by_cases here : d = c
  · subst here
    rw [started.active]
    exact fun same => other (Option.some.inj same).symm
  · rw [started.clients d here]
    exact gone.idle d

theorem Gone.putsBack
    {p c : Nat}
    (gone : Gone w r)
    (back : PutsBack w p c next) :
    Gone next r := by
  cases back with
  | starts present queue started =>
      refine Gone.started ?_ started
      exact ⟨gone.taken, gone.idle⟩
  | frees present queue busy =>
      exact ⟨gone.taken, gone.idle⟩

end Gone

/-- The accounts stay in order from one state to another. -/
def Passes (w next : World) : Prop :=
  ∀ erased, InOrder w erased [] [] → InOrder next erased [] []

section Passes

variable {w middle next : World}

theorem Passes.refl (w : World) : Passes w w :=
  fun _ => id

theorem Passes.of_agrees (same : Agrees w next) : Passes w next :=
  fun _ order => order.agrees same

theorem Passes.of_tunes (tunes : Tunes w next) : Passes w next :=
  .of_agrees (.of_tunes tunes)

/-- The request of a client ends, and the client may start the next one. -/
theorem Passes.of_ends
    {c r : Nat}
    (ends : Ends w c r next) :
    Passes w next := by
  intro erased order
  obtain ⟨active, left, released, tunes, releases, rfl⟩ := ends
  have detached := (order.detached active).tunes tunes
  have gone : Gone left r := by
    refine Gone.tunes ⟨?_, order.linked.left active (Keeps.refl _)⟩ tunes
    have isLinked := order.linked c r active
    change (w.requests r).client ≠ none
    simp [isLinked]
  cases releases with
  | alone _ =>
      exact detached.ending gone.idle
  | back _ back =>
      have made : c < left.nextClient := by
        rw [tunes.nextClient]
        exact order.introduced c r active
      exact (detached.putsBack made back).ending (gone.putsBack back).idle

/-- A redirected request leaves its client, and somebody takes it again. -/
theorem Passes.of_follows
    {c r : Nat}
    (follows : Follows w c r next) :
    Passes w next := by
  intro erased order
  cases follows with
  | same active tunes started =>
      have made := order.introduced c r active
      exact ((order.leaving active).tunes tunes).started
        (by rw [tunes.nextClient]; exact made) started
  | @pooled p left released next active _ tunes back pooled =>
      have made := order.introduced c r active
      have returned :=
        ((order.leaving active).tunes tunes).putsBack
          (by rw [tunes.nextClient]; exact made) back
      have weak := returned.tunes (.weak released c true)
      refine InOrder.pooled (weak.agrees ?_) pooled
      refine .of_events rfl (fun _ => rfl) (fun _ => rfl) (fun s => ?_)
        (List.append_nil _).symm (by simp)
      by_cases here : s = r
      · subst here
        simp [World.setRequest, World.weak, World.setTcp, World.setClient]
      · simp [World.setRequest, here]

theorem Passes.trans
    (one : Passes w middle)
    (two : Passes middle next) :
    Passes w next :=
  fun erased order => two erased (one erased order)

end Passes

/-! ## Steps -/

/-- Code that goes on leaves the accounts in order. -/
def KeepsOrder (w : World) (step : Step) : Prop :=
  Leads step (Passes w)

theorem KeepsOrder.after
    {w middle : World}
    {step : Step}
    (keeps : KeepsOrder middle step)
    (passes : Passes w middle) :
    KeepsOrder w step :=
  keeps.imp fun _ => passes.trans

theorem finishRequest_keepsOrder
    (w : World)
    (c : Nat)
    (error : Option ErrorCode) :
    KeepsOrder w (w.finishRequest c error) :=
  (finishRequest_act w c error).leads.imp fun _ ⟨_, ends⟩ => .of_ends ends

theorem cancel_keepsOrder (w : World) (c : Nat) (error : Option ErrorCode) :
    KeepsOrder w (w.cancel c error) := by
  unfold cancel
  dsimp only
  split
  · exact Leads.next (.refl w)
  · exact (finishRequest_keepsOrder _ c error).after
      (.of_tunes (.setClient w c _ rfl rfl rfl rfl (Or.inr rfl) (Or.inl rfl)))

theorem counting_tunes (w : World) (r : Nat) : Tunes w (w.counting r) :=
  .setRequest w r _ rfl rfl rfl rfl (.refl _)

theorem analyzeRequest_keepsOrder (w : World) (c : Nat) :
    KeepsOrder w (w.analyzeRequest c) := by
  generalize analyzed : w.analyzeRequest c = step
  have analyses := analyzeRequest_analyses w c
  rw [analyzed] at analyses
  cases analyses with
  | fails reason =>
      exact Leads.fault
  | continues r answered isContinue =>
      exact Leads.next (.refl w)
  | unexpected redirected unlimited =>
      exact cancel_keepsOrder w c _
  | limited redirected permitted exceeded =>
      exact (cancel_keepsOrder _ c _).after (.of_tunes (counting_tunes w _))
  | unlocated redirected permitted within missing =>
      exact (cancel_keepsOrder _ c _).after (.of_tunes (counting_tunes w _))
  | redirects context redirects =>
      refine Leads.next (.of_tunes ?_)
      rw [redirects.shape]
      refine Tunes.trans ?_
        (.setClient _ c _ rfl rfl rfl rfl (Or.inl rfl) (Or.inl rfl))
      exact .setRequest w _ _ rfl rfl rfl rfl (trims_redirectedTo _ _)
  | finishes other =>
      exact finishRequest_keepsOrder w c none

theorem redirected_keepsOrder (w : World) (c : Nat) :
    KeepsOrder w (w.redirected c) := by
  unfold redirected
  dsimp only
  split
  · exact Leads.next (.of_tunes
      (.setClient w c _ rfl rfl rfl rfl (Or.inl rfl) (Or.inl rfl)))
  · have left :
        Tunes w (w.setClient c { w.clients c with inRedirect := false }) :=
      .setClient w c _ rfl rfl rfl rfl (Or.inl rfl) (Or.inl rfl)
    split
    · exact Leads.fault
    · exact Leads.fault
    · rename_i r response active _
      have rewritten :
          ∀ middle : World,
            (middle.clients c).request = some r →
            Tunes w middle →
            KeepsOrder w
              ((middle.followRedirect c r response).before
                fun w => .next w []) := by
        intro middle stillActive tunes
        have post := followRedirect_act response stillActive (Tunes.refl middle)
        refine leads_before
          (post.imp (fun _ => id) (fun _ _ => trivial) fun _ _ => trivial) ?_
        intro next follows
        exact Leads.next ((Passes.of_tunes tunes).trans (.of_follows follows))
      have stillActive :
          ((w.setClient c
            { w.clients c with inRedirect := false }).clients c).request =
            some r := by
        simpa [World.setClient] using active
      split
      · refine rewritten _ ?_ (left.trans (.setRequest _ r _ rfl rfl rfl rfl (.refl _)))
        exact stillActive
      · exact rewritten _ stillActive left

theorem receivePart_keepsOrder (w : World) (c : Nat) (response : Response) :
    KeepsOrder w (w.receivePart c response) :=
  (receivePart_tunes w c response).leads.imp fun _ => .of_tunes

theorem parseShift_agrees
    (w : World)
    (c buffer context : Nat)
    (result : Parsed) :
    Agrees w (w.parseShift c buffer context result) := by
  refine .of_events rfl (fun _ => rfl) (fun d => ?_) (fun _ => rfl) rfl
    (by simp [keepsSubmissions])
  by_cases here : d = c
  · subst here
    simp [World.parseShift, World.emit, World.setClient]
  · simp [World.parseShift, World.emit, World.setClient, here]

theorem onReadLoop_keepsOrder (w : World) (c buffer : Nat) (buf : List Parsed) :
    KeepsOrder w (w.onReadLoop c buffer buf) := by
  cases buf with
  | nil =>
      exact Leads.next (.refl w)
  | cons result rest =>
      simp only [onReadLoop]
      split
      · exact Leads.next (.of_tunes (.reset w c))
      · rename_i context _
        have parsed : Passes w (w.parseShift c buffer context result) :=
          .of_agrees (parseShift_agrees w c buffer context result)
        cases result with
        | error error _ =>
            exact (cancel_keepsOrder _ c _).after parsed
        | headers =>
            exact Leads.next parsed
        | body _ =>
            exact (receivePart_keepsOrder _ c _).after parsed
        | done _ =>
            refine KeepsOrder.after ?_ parsed
            exact leads_andFrames (analyzeRequest_keepsOrder _ c)

theorem onEof_keepsOrder
    (w : World)
    (c : Nat)
    (error : Option ErrorCode)
    (response : Response) :
    KeepsOrder w (w.onEof c error response) := by
  unfold onEof
  dsimp only
  split
  · exact Leads.next (.of_tunes (.reset w c))
  · exact Leads.fault
  · split
    · refine (cancel_keepsOrder _ c _).after (.of_tunes ?_)
      exact .setClient w c _ rfl rfl rfl rfl (Or.inr rfl) (Or.inl rfl)
    · refine (analyzeRequest_keepsOrder _ c).after (.of_tunes ?_)
      exact .setClient w c _ rfl rfl rfl rfl (Or.inr rfl) (Or.inl rfl)

theorem formFileComplete_keepsOrder
    (w : World)
    (c : Nat)
    (error : Option ErrorCode) :
    KeepsOrder w (w.formFileComplete c error) := by
  unfold formFileComplete
  split
  · exact finishRequest_keepsOrder w c _
  · have counts :
        Tunes w
          (w.setClient c
            { w.clients c with formField := (w.clients c).formField + 1 }) :=
      .setClient w c _ rfl rfl rfl rfl (Or.inl rfl) (Or.inl rfl)
    dsimp only
    generalize w.setClient c
      { w.clients c with formField := (w.clients c).formField + 1 } = next
      at counts
    cases active : (next.clients c).request with
    | none =>
        simp only [sendForm, active]
        exact Leads.fault
    | some r =>
        refine leads_before
          ((sendForm_post next c r active).imp (fun _ => Tunes.of_sends)
            (fun _ never => never.elim) fun _ _ => trivial) ?_
        intro sent sends
        exact Leads.next (.of_tunes (counts.trans sends))

/-- Every frame but the return of `Pool::cancel_request`. -/
theorem code_keepsOrder
    (w : World)
    (frame : Frame)
    (other : cancellation frame = none) :
    KeepsOrder w (code frame w) := by
  cases frame with
  | callback callback =>
      exact Leads.next (.refl w)
  | fire callback =>
      exact Leads.next (.of_tunes (.emit w rfl))
  | agentResponse a r response error =>
      refine Leads.next ?_
      unfold agentResponse
      split
      · exact .refl w
      · exact .of_tunes (.collect w _ _ _)
  | agentRedirect a contextUri topLevel c context =>
      obtain ⟨reason, _, faults⟩ | ⟨response, r, _, _, acts⟩ :=
        code_agentRedirect w a contextUri topLevel c context
      · rw [faults]
        exact Leads.fault
      · rw [acts]
        exact Leads.next (.of_tunes
          ((Tunes.collect w a response.cookies context.uri).trans
            (Tunes.inject _ a r contextUri topLevel _)))
  | onRead c buffer buf =>
      exact onReadLoop_keepsOrder w c buffer buf
  | continued c =>
      exact Leads.next (.of_tunes
        (.setClient w c _ rfl rfl rfl rfl (Or.inl rfl) (Or.inl rfl)))
  | redirected c =>
      exact redirected_keepsOrder w c
  | redirectCatch c =>
      refine leads_andFrames ((cancel_keepsOrder _ c _).after (.of_tunes ?_))
      exact .setClient w c _ rfl rfl rfl rfl (Or.inl rfl) (Or.inl rfl)
  | rethrow =>
      exact Leads.raise
  | cancelReturn p key ticket generation =>
      cases other

/-- The application or the code goes on with the accounts in order. -/
def Balances
    (erased : List (Nat × NetLoc × Nat))
    (outcome : Step) :
    Prop :=
  ∀ next frames,
    outcome = .next next frames →
    InOrder next (cancellations frames ++ erased) [] []

section Balances

variable {w : World} {erased : List (Nat × NetLoc × Nat)} {outcome : Step}

theorem KeepsOrder.balances
    (keeps : KeepsOrder w outcome)
    (plain : Plain outcome)
    (order : InOrder w erased [] []) :
    Balances erased outcome := by
  intro next frames executed
  rw [plain next frames executed, List.nil_append]
  exact keeps next frames executed erased order

theorem Balances.next
    {next : World}
    {frames : List Frame}
    (order : InOrder next erased [] [])
    (none : cancellations frames = []) :
    Balances erased (.next next frames) := by
  rintro after pushed ⟨⟩
  rw [none]
  exact order

theorem Balances.fault {reason : Fault} : Balances erased (.fault reason) := by
  rintro after pushed ⟨⟩

/-- A request that no client has is cancelled: its place is to be erased. -/
theorem cancelRequest_balances
    {r : Nat}
    (order : InOrder w erased [] [])
    (unlinked : (w.requests r).client = none)
    (p : Nat)
    (error : Option ErrorCode) :
    Balances erased (w.cancelRequest p r error) := by
  have idle : ∀ c, (w.clients c).request ≠ some r := by
    intro c active
    rw [order.linked c r active] at unlinked
    cases unlinked
  unfold cancelRequest
  dsimp only
  split
  · exact .fault
  · rename_i entry present
    split
    · exact .fault
    · rename_i place found
      have isRequest : place.req = r := by
        simpa using List.find?_some found
      have marked := order.marked present (List.mem_of_find?_eq_some found)
      rw [isRequest] at marked
      rintro next frames ⟨⟩
      exact marked.ending idle

theorem requestCancel_balances
    (order : InOrder w erased [] [])
    (r : Nat)
    (error : Option ErrorCode) :
    Balances erased (w.requestCancel r error) := by
  unfold requestCancel
  dsimp only
  split
  · exact (cancel_keepsOrder w _ error).balances (cancel_plain w _ error) order
  · rename_i p unlinked _
    exact cancelRequest_balances order unlinked p error
  · exact .next order rfl

theorem onTimer_balances
    (order : InOrder w erased [] [])
    (r : Nat) :
    Balances erased (w.onTimer r) := by
  unfold onTimer
  dsimp only
  split
  · exact (cancel_keepsOrder w _ _).balances (cancel_plain w _ _) order
  · rename_i p unlinked _
    exact cancelRequest_balances order unlinked p _
  · exact .next order rfl

/-- The application submits a request, and it is accepted. -/
theorem submits_balances
    {straight : Straight}
    {r : Nat}
    (pool : Option Nat)
    (loop : Nat)
    (order : InOrder w erased [] [])
    (taken :
      InOrder w erased [r] [r] →
      straight.Post (fun next => InOrder next erased [r] []) (fun _ => True)
        (fun _ => True)) :
    Balances erased (straight.before (acceptedOn pool loop r)) := by
  intro next frames executed
  obtain ⟨middle, rfl, goesOn⟩ := Straight.before_next executed
  cases goesOn
  have after : InOrder middle erased [r] [] := taken (order.offers r)
  exact after.accepts pool loop _ _

theorem setPool_agrees (w : World) (r : Nat) (pool : Option Nat) :
    Agrees w (w.setRequest r { w.requests r with pool := pool }) := by
  refine .of_events rfl (fun _ => rfl) (fun _ => rfl) (fun s => ?_)
    (List.append_nil _).symm (by simp)
  by_cases here : s = r
  · subst here
    simp [World.setRequest]
  · simp [World.setRequest, here]

theorem poolRequest_taken
    {loose : List Nat}
    {offered : List Nat}
    {r : Nat}
    (order : InOrder w erased offered (r :: loose))
    (p : Nat) :
    (w.poolRequest p r).Post (fun next => InOrder next erased offered loose)
      (fun _ => True) (fun _ => True) :=
  (poolRequest_post w p r).imp
    (fun _ pooled => (order.agrees (setPool_agrees w r _)).pooled pooled.2)
    (fun _ _ => trivial) fun _ _ => trivial

theorem requestSend_balances
    {r : Nat}
    {send : Nat → Step}
    (sends : ∀ c, Balances erased (send c)) :
    Balances erased (w.requestSend r send) := by
  unfold requestSend
  dsimp only
  split
  · rintro next frames ⟨⟩
  · split
    · rintro next frames ⟨⟩
    · split
      · exact sends _
      · exact .fault

/-- Every call and every event that goes on. -/
theorem accept_balances
    {input : Input}
    {top : Option Frame}
    (order : InOrder w erased [] [])
    (atRest : top = none → erased = [])
    (accepted : accept input top w = some outcome) :
    Balances erased outcome := by
  cases input with
  | edit r fields =>
      simp only [accept] at accepted
      split at accepted <;> cases accepted
      refine .next (order.agrees ?_) rfl
      refine .of_events rfl (fun _ => rfl) (fun _ => rfl) (fun s => ?_)
        (List.append_nil _).symm (by simp)
      by_cases here : s = r
      · subst here
        simp [World.setRequest, edited]
      · simp [World.setRequest, here]
  | listen r =>
      cases top <;> simp only [accept, reduceCtorEq] at accepted
      cases accepted
      refine .next (order.agrees ?_) rfl
      refine .of_events rfl (fun _ => rfl) (fun _ => rfl) (fun s => ?_)
        (List.append_nil _).symm (by simp)
      by_cases here : s = r
      · subst here
        simp [World.setRequest, listened]
      · simp [World.setRequest, here]
  | newClient loop =>
      cases accepted
      exact .next (order.newClient loop none) rfl
  | clientRequest c r =>
      simp only [accept] at accepted
      split at accepted <;> cases accepted
      rename_i made
      refine submits_balances _ _ order fun offered => ?_
      exact (clientRequest_post w c r).imp (fun _ => offered.started made)
        (fun _ _ => trivial) fun _ _ => trivial
  | poolRequest p r =>
      cases accepted
      exact submits_balances _ _ order fun offered => poolRequest_taken offered p
  | agentRequest a r contextUri topLevel =>
      simp only [accept, Option.some.injEq] at accepted
      subst accepted
      refine submits_balances _ _ order fun offered => ?_
      rcases agentRequest_tunes w a r contextUri topLevel with
        fault | ⟨middle, tunes, isPool⟩
      · rw [fault]
        trivial
      · rw [isPool]
        exact poolRequest_taken (offered.tunes tunes) _
  | cancel r error =>
      cases accepted
      exact requestCancel_balances order r error
  | clientCancel c error =>
      cases accepted
      exact (cancel_keepsOrder w c error).balances (cancel_plain w c error) order
  | sendChunk r data =>
      cases accepted
      refine requestSend_balances fun c => ?_
      split
      · exact .next order rfl
      · exact .next (order.tunes (.write w c _ (by simp))) rfl
  | sendFinalChunk r data =>
      cases accepted
      refine requestSend_balances fun c => .next (order.tunes ?_) rfl
      refine Tunes.trans ?_ (.write _ c _ (by simp))
      exact .setRequest w r _ rfl rfl rfl rfl (.refl _)
  | maxConnections p value =>
      cases accepted
      refine .next (order.agrees (.of_events rfl (fun q => ?_) (fun _ => rfl)
        (fun _ => rfl) (List.append_nil _).symm (by simp))) rfl
      by_cases here : q = p
      · subst here
        simp
      · simp [here]
  | advance loop milliseconds =>
      cases top <;> simp only [accept, reduceCtorEq] at accepted
      cases accepted
      exact .next (order.agrees (.of_events rfl (fun _ => rfl) (fun _ => rfl)
        (fun _ => rfl) (List.append_nil _).symm (by simp))) rfl
  | onConnect c error =>
      cases top <;> simp only [accept, reduceCtorEq] at accepted
      split at accepted
      · split at accepted <;> cases accepted
        · exact .next (order.tunes (.setTcp w c _ (Or.inl rfl))) rfl
        · exact (cancel_keepsOrder _ c _).balances (cancel_plain _ c _)
            (order.tunes (.setTcp w c _ (Or.inr rfl)))
      · cases accepted
  | onWrite c error =>
      cases top <;> simp only [accept, reduceCtorEq] at accepted
      split at accepted
      · split at accepted <;> cases accepted
        · exact .next (order.tunes (.setTcp w c _ (Or.inl rfl))) rfl
        · exact (cancel_keepsOrder _ c _).balances (cancel_plain _ c _)
            (order.tunes (.setTcp w c _ (Or.inl rfl)))
      · cases accepted
  | onRead c buf =>
      cases top <;> simp only [accept, reduceCtorEq] at accepted
      split at accepted <;> cases accepted
      exact .next (order.agrees (.of_events rfl (fun _ => rfl) (fun _ => rfl)
        (fun _ => rfl) rfl (by simp [keepsSubmissions]))) rfl
  | onReadError c error =>
      cases top <;> simp only [accept, reduceCtorEq] at accepted
      split at accepted <;> cases accepted
      exact (cancel_keepsOrder w c _).balances (cancel_plain w c _) order
  | onEof c error response =>
      cases top <;> simp only [accept, reduceCtorEq] at accepted
      split at accepted <;> cases accepted
      refine (onEof_keepsOrder _ c error response).balances
        (onEof_plain _ c error response) (order.tunes ?_)
      refine Tunes.trans ?_ (.emit _ rfl)
      exact .setTcp w c _ (Or.inl rfl)
  | onTimer r =>
      cases top <;> simp only [accept, reduceCtorEq] at accepted
      split at accepted
      · cases accepted
      · split at accepted
        · cases accepted
        · rename_i timer _ _ _ _
          split at accepted <;> cases accepted
          have rung :
              Agrees w
                (w.setRequest r
                  { w.requests r with
                    timer := some { timer with deadline := none } }) := by
            refine .of_events rfl (fun _ => rfl) (fun _ => rfl) (fun s => ?_)
              (List.append_nil _).symm (by simp)
            by_cases here : s = r
            · subst here
              simp [World.setRequest]
            · simp [World.setRequest, here]
          unfold fireTimer
          dsimp only
          split
          · exact onTimer_balances (order.agrees rung) r
          · exact .next (order.agrees rung) rfl
  | streamData r item data =>
      cases top <;> simp only [accept, reduceCtorEq] at accepted
      split at accepted <;> cases accepted
      exact .next (order.tunes (.write w _ _ (by simp))) rfl
  | streamFinish r item error =>
      cases top <;> simp only [accept, reduceCtorEq] at accepted
      split at accepted <;> cases accepted
      exact (formFileComplete_keepsOrder _ _ error).balances
        (formFileComplete_plain _ _ error)
        (order.tunes (.setRequest w r _ rfl rfl rfl rfl (.refl _)))
  | checkInactivity p =>
      cases top with
      | some frame =>
          simp only [accept, reduceCtorEq] at accepted
      | none =>
          simp only [accept] at accepted
          split at accepted <;> cases accepted
          have none := atRest rfl
          subst none
          exact .next (order.sweeps p) rfl

/-- A call that is refused leaves the accounts in order. -/
theorem refused_order
    {next : World}
    {input : Input}
    {top : Option Frame}
    (order : InOrder w erased [] [])
    (mayBe : mayRefuse input = true)
    (accepted : accept input top w = some (.raise next)) :
    InOrder next erased [] [] := by
  have pooled :
      ∀ {offered : World} {p r : Nat},
        InOrder offered erased [] [] →
        offered.poolRequest p r = .raise next →
        InOrder next erased [] [] := by
    intro offered p r before isRaise
    have post := poolRequest_post offered p r
    rw [isRaise] at post
    have refuses : PoolRefuses offered p r next := .of_post post
    cases refuses with
    | early exception =>
        exact before.tunes (.emit offered rfl)
    | late isPooled places refused =>
        subst isPooled
        exact ((before.agrees (setPool_agrees offered r _)).places
          places).1.refused refused
  cases input with
  | clientRequest c r =>
      simp only [accept, Option.ite_none_right_eq_some,
        Option.some.injEq] at accepted
      have post := clientRequest_post w c r
      rw [submits_raise accepted.2] at post
      exact order.refused post
  | poolRequest p r =>
      simp only [accept, Option.some.injEq] at accepted
      exact pooled order (submits_raise accepted)
  | agentRequest a r contextUri topLevel =>
      simp only [accept, Option.some.injEq] at accepted
      rcases agentRequest_tunes w a r contextUri topLevel with
        fault | ⟨middle, tunes, isPool⟩
      · rw [fault] at accepted
        cases accepted
      · rw [isPool] at accepted
        exact pooled (order.tunes tunes) (submits_raise accepted)
  | sendChunk r data =>
      simp only [accept, Option.some.injEq] at accepted
      obtain ⟨exception, rfl⟩ := requestSend_raise (fun c => by
        split <;> simp) accepted
      exact order.tunes (.emit w rfl)
  | sendFinalChunk r data =>
      simp only [accept, Option.some.injEq] at accepted
      obtain ⟨exception, rfl⟩ := requestSend_raise (fun c => by simp) accepted
      exact order.tunes (.emit w rfl)
  | _ =>
      cases mayBe

end Balances

/-! ## Runs -/

/-- The accounts are in order, with the places that the stack is to erase. -/
def Audited (w : World) (stack : List Frame) : Prop :=
  InOrder w (cancellations stack) [] []

/-- The frame of a return is executed, or another one. -/
theorem Audited.tick
    {w next : World}
    {frame : Frame}
    {frames rest : List Frame}
    (audited : Audited w (frame :: rest))
    (executed : code frame w = .next next frames) :
    Audited next (frames ++ rest) := by
  cases mark : cancellation frame with
  | none =>
      have below : cancellations (frame :: rest) = cancellations rest := by
        simp [cancellations, mark]
      have plain := code_plain w frame next frames executed
      unfold Audited at audited ⊢
      rw [cancellations_append, plain, List.nil_append]
      rw [below] at audited
      exact code_keepsOrder w frame mark next frames executed _ audited
  | some erased =>
      cases frame with
      | cancelReturn p key ticket generation =>
          change w.cancelReturn p key ticket generation = _ at executed
          unfold cancelReturn at executed
          dsimp only at executed
          split at executed
          · cases executed
          · rename_i entry present
            split at executed
            · rename_i valid
              cases executed
              exact InOrder.erases audited present valid.2
            · cases executed
      | _ =>
          cases mark

theorem preserves_audited : machine.Preserves KeepsAccounts Audited where
  tick _ _ _ _ _ _ _ audited executed := audited.tick executed
  tickRaise frame rest w next _ permitted _ executed := by
    have calm := permitted frame rfl
    change code frame w = .raise next at executed
    simp [executed, raises] at calm
  ret frame rest w isCallback audited := by
    cases frame with
    | callback callback => exact audited
    | _ => cases isCallback
  throw _ _ _ _ _ permitted _ := permitted.elim
  input input stack w next frames _ _ audited accepted := by
    unfold Audited
    rw [cancellations_append]
    refine accept_balances audited (fun atRest => ?_) accepted next frames rfl
    rw [List.head?_eq_none_iff.mp atRest]
    rfl
  inputRaise input stack w next _ permitted audited accepted := by
    rcases permitted with mayBe | never
    · exact refused_order audited mayBe accepted
    · cases never _ accepted

/-- Nothing has been submitted yet. -/
theorem audited_of_fresh
    {w : World}
    (fresh : Fresh w) :
    Audited w [] where
  linked c r active := by simp [fresh.clients] at active
  introduced c r active := by simp [fresh.clients] at active
  named := everywhere_of_fresh fresh
  numbered := everywhere_of_fresh fresh
  issued _ _ _ member := by cases member
  books := by
    have nobody : ∀ r keeper, ¬ Holds w [] r keeper := by
      intro r keeper
      cases keeper with
      | client c => simp [Holds, fresh.clients]
      | place p key ticket => simp [Holds, queueOf, fresh.pools]
    refine Or.inr ((Ledger.balanced_zero nobody).congr (fun r => ?_) (fun r => ?_)
      fun _ _ => Iff.rfl)
    · simp [credit, fresh.trace]
    · simp [debit, fresh.trace]

/--
In every run without exceptions, whenever nothing runs: every submission of a
request that has been accepted has been told its end by one response event, or
one client or one place in a queue keeps it; and no two clients have one request.
-/
theorem completed_of_run
    (w : World)
    (labels : List Label)
    (final : Config)
    (fresh : Fresh w)
    (guarded : machine.Guarded KeepsAccounts (start w) labels)
    (ran : run? w labels = some final)
    (quiet : final.stack = [])
    (r : Nat) :
    (final.state.trace.countP (isAcceptance r) : ℕ∞) =
        final.state.trace.countP (isAnswer r) +
          {keeper | Holds final.state [] r keeper}.encard ∧
      ∀ c, Holds final.state [] r (.client c) →
        (final.state.requests r).client = some c := by
  have audited : Audited final.state final.stack :=
    preserves_audited.run (audited_of_fresh fresh) guarded ran
  have announced := announced_of_run fresh guarded ran r
  rw [quiet, List.countP_nil, Nat.add_zero] at announced
  rw [quiet] at audited
  refine ⟨?_, fun c active => audited.linked c r active⟩
  rcases audited.books with (twice | ⟨p, key, ticket, member, _⟩) | booked
  · exact (twice List.nodup_nil).elim
  · cases member
  · have balance := booked r
    simp only [credit, debit, List.count_nil, Nat.add_zero] at balance
    rw [announced]
    exact balance

/-- One request is answered, another one waits for it and is started then. -/
def answeredInTurn : List Label :=
  [.input (.maxConnections 0 1),
    .input (.edit 0 { uri := some { scheme := "http", host := "here" } }),
    .input (.edit 1 { uri := some { scheme := "http", host := "here" } }),
    .input (.poolRequest 0 0),
    .input (.poolRequest 0 1),
    .input (.onConnect 0 none),
    .input (.onRead 0 [.done { code := 200 }]),
    .tick, .tick, .ret, .tick, .ret, .tick]

theorem completed_answeredInTurn :
    ∃ final,
      run? (initial {}) answeredInTurn = some final ∧
        (final.state.trace.countP (isAcceptance 1) : ℕ∞) =
            final.state.trace.countP (isAnswer 1) +
              {keeper | Holds final.state [] 1 keeper}.encard ∧
          ∀ c, Holds final.state [] 1 (.client c) →
            (final.state.requests 1).client = some c :=
  ⟨_, rfl,
    completed_of_run (initial {}) answeredInTurn _ (fresh_initial {})
      (by decide +kernel) rfl rfl 1⟩

end UniEventHttp.ClientSide.World
