import UniEventHttp.ClientLists

namespace UniEventHttp.ClientSide.World

/-!
# Fairness of the queues of a pool

Requests join a queue at its end.  A request is started when it is handed over
from the front of a queue, or when the pool takes a client for it at a location
where nobody waits.  A queue that is not empty implies that no client is free and
that the limit is reached, unless the limit has been raised in between.
-/

/-! ## The property -/

/-- The queue of a location. -/
def queueOf (w : World) (p : Nat) (key : NetLoc) : List Place :=
  ((w.pools p).clients key).elim [] NetLocList.queue

/-- The queues keep their order, and what is new is at their end. -/
def JoinsBehind (w next : World) : Prop :=
  ∀ p key, ∃ kept joined,
    next.queueOf p key = kept ++ joined ∧
      kept.Sublist (w.queueOf p key)

/-- Why it is the turn of a request that a step has started. -/
inductive Turn (w : World) (cause : Cause) (next : World) : Nat → Nat → Prop where
  /-- The client has the request already and follows a redirect. -/
  | again {c r : Nat} : (w.clients c).request = some r → Turn w cause next c r
  /-- The application gives the request to a client, not to a pool. -/
  | direct {c r : Nat} :
      cause = .input (.clientRequest c r) → Turn w cause next c r
  /-- The pool takes a client at the location of the request; nobody waits there. -/
  | taken {c r p : Nat} {fields : RequestFields} :
      (next.requests r).toRequestFields = fields.withScheme →
      next.Busy p (w.config.netloc fields) c →
      w.queueOf p (w.config.netloc fields) = [] →
      Turn w cause next c r
  /-- The request was the first of a queue. -/
  | first {c p : Nat} {key : NetLoc} {place : Place} {rest joined : List Place} :
      w.queueOf p key = place :: rest →
      next.queueOf p key = rest ++ joined →
      Turn w cause next c place.req

/-- The step has started requests in their turn only. -/
def StartsInTurn (w : World) (cause : Cause) (next : World) : Prop :=
  ∃ events,
    next.trace = w.trace ++ events ∧
      ∀ c r, .started c r ∈ events → Turn w cause next c r

/-- The queues are fair in a step. -/
structure Fair (w : World) (cause : Cause) (next : World) : Prop where
  joins : JoinsBehind w next
  starts : StartsInTurn w cause next

/-- The queues are fair in every step of a run. -/
def FairRun (w : World) (labels : List Label) : Prop :=
  ∀ first label rest config next,
    labels = first ++ label :: rest →
    run? w first = some config →
    machine.step? config label = some next →
    next.state = config.state ∨
      ∃ cause,
        Causes config label cause ∧ Fair config.state cause next.state

/-- A limit is not raised above the number of busy clients where requests wait. -/
def KeepsTurns (config : Config) (label : Label) : Prop :=
  ∀ p value,
    label = .input (.maxConnections p value) →
    ∀ key, ∀ entry ∈ (config.state.pools p).clients key,
      entry.queue ≠ [] →
      value ≤ entry.busy.length

/-! ## The invariant -/

/-- Requests wait only while no client can be found for them. -/
def Saturated (limit _count : Nat) (entry : NetLocList) : Prop :=
  entry.queue ≠ [] → entry.free = [] ∧ limit ≤ entry.busy.length

theorem lasting_saturated : Lasting Saturated where
  first limit count waits := (waits rfl).elim
  pops limit count entry place rest saturated queue _ :=
    saturated (by simp [queue])
  frees limit count entry c saturated queue busy waits := (waits queue).elim
  takes limit count entry c saturated free waits := by
    rw [(saturated waits).1] at free
    cases free
  grows limit count entry saturated noneFree below waits := by
    have full := (saturated waits).2
    omega
  enqueues limit count entry r saturated noneFree full _ := ⟨noneFree, full⟩
  erases limit count entry index generation saturated waits := by
    refine saturated fun nobody => waits ?_
    simp [nobody]
  sweeps limit count entry free saturated fewer alive waits := by
    refine ⟨?_, (saturated waits).2⟩
    rw [(saturated waits).1] at fewer
    exact List.sublist_nil.mp fewer
  later limit count entry saturated := saturated

/-! ## Queues -/

namespace JoinsBehind

variable {w next third : World}

theorem refl (w : World) : JoinsBehind w w :=
  fun p key => ⟨w.queueOf p key, [], by simp, List.Sublist.refl _⟩

theorem trans
    (one : JoinsBehind w next)
    (two : JoinsBehind next third) :
    JoinsBehind w third := by
  intro p key
  obtain ⟨kept, joined, isNext, fewer⟩ := one p key
  obtain ⟨keptTwo, joinedTwo, isThird, fewerTwo⟩ := two p key
  rw [isNext] at fewerTwo
  obtain ⟨front, back, rfl, isFront, _⟩ := List.sublist_append_iff.mp fewerTwo
  refine ⟨front, back ++ joinedTwo, ?_, isFront.trans fewer⟩
  rw [isThird, List.append_assoc]

theorem congr
    (same : ∀ p key, next.queueOf p key = w.queueOf p key) :
    JoinsBehind w next := by
  intro p key
  exact ⟨w.queueOf p key, [], by rw [same, List.append_nil],
    List.Sublist.refl _⟩

end JoinsBehind

theorem queueOf_congr
    {w next : World}
    (pools : next.pools = w.pools)
    (p : Nat)
    (key : NetLoc) :
    next.queueOf p key = w.queueOf p key := by
  unfold queueOf
  rw [pools]

theorem queueOf_some
    {w : World}
    {p : Nat}
    {key : NetLoc}
    {entry : NetLocList}
    (present : (w.pools p).clients key = some entry) :
    w.queueOf p key = entry.queue := by
  simp [queueOf, present]

theorem queueOf_setEntry
    (w : World)
    (p : Nat)
    (key : NetLoc)
    (entry : NetLocList)
    (q : Nat)
    (other : NetLoc) :
    (w.setEntry p key (some entry)).queueOf q other =
      if q = p ∧ other = key then entry.queue else w.queueOf q other := by
  unfold queueOf
  rw [setEntry_clients]
  split <;> rfl

/-! ## Steps without a start -/

/-- Whether an event is the start of a request. -/
def isStart : Event → Bool
  | .started _ _ => true
  | _ => false

/-- The queues stay, nothing is started, and no client gets a request. -/
structure Calm (w next : World) : Prop where
  config : next.config = w.config
  queue : ∀ p key, next.queueOf p key = w.queueOf p key
  request :
    ∀ c r,
      (next.clients c).request = some r →
      (w.clients c).request = some r
  trace :
    ∃ events,
      next.trace = w.trace ++ events ∧
        ∀ event ∈ events, isStart event = false

namespace Calm

variable {w next third : World} {cause : Cause}

theorem trans
    (one : Calm w next)
    (two : Calm next third) :
    Calm w third where
  config := two.config.trans one.config
  queue p key := (two.queue p key).trans (one.queue p key)
  request c r active := one.request c r (two.request c r active)
  trace := by
    obtain ⟨first, traceOne, quietOne⟩ := one.trace
    obtain ⟨second, traceTwo, quietTwo⟩ := two.trace
    refine ⟨first ++ second, by rw [traceTwo, traceOne, List.append_assoc], ?_⟩
    intro event member
    exact (List.mem_append.mp member).elim (quietOne event) (quietTwo event)

theorem of_tunes (tunes : Tunes w next) : Calm w next where
  config := tunes.config
  queue := queueOf_congr tunes.pools
  request c r active := by
    rw [tunes.request] at active
    exact active
  trace := by
    obtain ⟨events, trace, minor⟩ := tunes.trace
    refine ⟨events, trace, fun event member => ?_⟩
    have isMinor := minor event member
    cases event with
    | started c r =>
        cases isMinor
    | _ =>
        rfl

theorem congr
    (config : next.config = w.config)
    (pools : next.pools = w.pools)
    (clients : next.clients = w.clients)
    (trace : next.trace = w.trace) :
    Calm w next where
  config := config
  queue := queueOf_congr pools
  request c r active := by
    rw [clients] at active
    exact active
  trace := ⟨[], by simp [trace], by simp⟩

theorem emit
    (w : World)
    {event : Event}
    (quiet : isStart event = false) :
    Calm w (w.emit event) where
  config := rfl
  queue _ _ := rfl
  request _ _ := id
  trace := ⟨[event], rfl, by simpa using quiet⟩

theorem setRequest (w : World) (r : Nat) (request : Request) :
    Calm w (w.setRequest r request) :=
  congr rfl rfl rfl rfl

theorem setClient
    (w : World)
    (c : Nat)
    (client : Client)
    (request :
      client.request = none ∨ client.request = (w.clients c).request) :
    Calm w (w.setClient c client) where
  config := rfl
  queue _ _ := rfl
  request d r active := by
    by_cases same : d = c
    · subst same
      simp only [World.setClient, Function.update_self] at active
      rcases request with idle | keeps
      · rw [idle] at active
        cases active
      · rw [← keeps]
        exact active
    · simpa [World.setClient, same] using active
  trace := ⟨[], by simp [World.setClient], by simp⟩

theorem detached (w : World) (c : Nat) : Calm w (w.detached c) :=
  setClient w c _ (Or.inl rfl)

theorem leaving (w : World) (c r : Nat) : Calm w (w.leaving c r) :=
  (detached w c).trans (setRequest _ r _)

theorem ending (w : World) (r : Nat) : Calm w (w.ending r) :=
  (setRequest w r _).trans (emit _ rfl)

theorem parseShift
    (w : World)
    (c buffer context : Nat)
    (result : Parsed) :
    Calm w (w.parseShift c buffer context result) := by
  refine Calm.trans ?_ (emit _ rfl)
  exact setClient w c _ (Or.inr rfl)

/-- A refused request is not started. -/
theorem of_refused {c r : Nat} (refused : Refused w c r next) : Calm w next where
  config := refused.config
  queue := queueOf_congr refused.pools
  request d s active := by
    by_cases same : d = c
    · subst same
      obtain ⟨tcp, client⟩ := refused.client
      rw [client] at active
      exact active
    · rw [refused.clients d same] at active
      exact active
  trace := by
    obtain ⟨exception, trace⟩ := refused.trace
    exact ⟨_, trace, by simp [isStart]⟩

theorem startsInTurn (still : Calm w next) : StartsInTurn w cause next := by
  obtain ⟨events, trace, quiet⟩ := still.trace
  refine ⟨events, trace, fun c r member => ?_⟩
  have isQuiet := quiet _ member
  cases isQuiet

theorem fair (still : Calm w next) : Fair w cause next :=
  ⟨JoinsBehind.congr still.queue, still.startsInTurn⟩

/-- Nothing of importance happens before a fair step. -/
theorem before
    (still : Calm w next)
    (fair : Fair next cause third) :
    Fair w cause third where
  joins := (JoinsBehind.congr still.queue).trans fair.joins
  starts := by
    obtain ⟨first, traceOne, quiet⟩ := still.trace
    obtain ⟨second, traceTwo, turns⟩ := fair.starts
    refine ⟨first ++ second, by rw [traceTwo, traceOne, List.append_assoc], ?_⟩
    intro c r member
    rcases List.mem_append.mp member with old | new
    · have isQuiet := quiet _ old
      cases isQuiet
    · cases turns c r new with
      | again active =>
          exact .again (still.request c r active)
      | direct isDirect =>
          exact .direct isDirect
      | taken fields busy nobody =>
          rw [still.config, still.queue] at nobody
          rw [still.config] at busy
          exact .taken fields busy nobody
      | first queue popped =>
          rw [still.queue] at queue
          exact .first queue popped

end Calm

theorem Fair.emit
    {w next : World}
    {cause : Cause}
    (fair : Fair w cause next)
    {event : Event}
    (quiet : isStart event = false) :
    Fair w cause (next.emit event) where
  joins := fair.joins.trans (JoinsBehind.congr fun _ _ => rfl)
  starts := by
    obtain ⟨events, trace, turns⟩ := fair.starts
    refine ⟨events ++ [event], by simp [World.emit, trace], fun c r member => ?_⟩
    rcases List.mem_append.mp member with old | new
    · cases turns c r old with
      | again active =>
          exact .again active
      | direct isDirect =>
          exact .direct isDirect
      | taken fields busy nobody =>
          exact .taken fields busy nobody
      | first queue popped =>
          exact .first queue popped
    · rw [List.mem_singleton] at new
      rw [← new] at quiet
      cases quiet

/-! ## Starting -/

theorem isStart_wroteOn
    {c : Nat}
    {connection : Option Nat}
    {piece : Piece} :
    ∀ event ∈ wroteOn c connection piece, isStart event = false := by
  intro event member
  simp only [wroteOn, List.mem_map] at member
  obtain ⟨_, _, rfl⟩ := member
  rfl

/-- `Client::request` starts its request and no other one. -/
theorem Started.starts
    {w next : World}
    {c r : Nat}
    (started : Started w c r next) :
    ∃ events,
      next.trace = w.trace ++ events ∧
        ∀ d s, .started d s ∈ events → d = c ∧ s = r := by
  obtain ⟨tcp, opening, pieces, connects, _, _, trace, _⟩ := started.connects
  refine ⟨_, by rw [trace, List.append_assoc], ?_⟩
  intro d s member
  simp only [List.mem_append, List.mem_cons, List.mem_flatMap] at member
  rcases member with isOpening | isStarted | wrote | ⟨piece, _, wrote⟩
  · cases connects with
    | reuses _ _ _ =>
        cases isOpening
    | opens _ _ _ _ _ _ =>
        rw [List.mem_singleton] at isOpening
        cases isOpening
  · cases isStarted
    exact ⟨rfl, rfl⟩
  · have quiet := isStart_wroteOn _ wrote
    cases quiet
  · have quiet := isStart_wroteOn _ wrote
    cases quiet

/-- The queues after the first request of one has left it. -/
theorem popped_queue
    {w next : World}
    {p : Nat}
    {key : NetLoc}
    {entry : NetLocList}
    {place : Place}
    {rest : List Place}
    (present : (w.pools p).clients key = some entry)
    (queue : entry.queue = place :: rest)
    (pools :
      next.pools = (w.setEntry p key (some { entry with queue := rest })).pools) :
    w.queueOf p key = place :: rest ∧
      next.queueOf p key = rest ∧
      JoinsBehind w next := by
  have was : w.queueOf p key = place :: rest := by
    rw [queueOf_some present, queue]
  have now :
      ∀ q other,
        next.queueOf q other =
          if q = p ∧ other = key then rest else w.queueOf q other := by
    intro q other
    rw [queueOf_congr pools, queueOf_setEntry]
  refine ⟨was, by rw [now, if_pos ⟨rfl, rfl⟩], fun q other => ?_⟩
  refine ⟨next.queueOf q other, [], by simp, ?_⟩
  rw [now]
  split
  · rename_i same
    obtain ⟨rfl, rfl⟩ := same
    rw [was]
    exact List.sublist_cons_self place rest
  · exact List.Sublist.refl _

/-- `putback` hands over the first request, and then the queues only grow. -/
theorem PutsBack.fair
    {w released next : World}
    {p c : Nat}
    {cause : Cause}
    {events : List Event}
    (putsBack : PutsBack w p c released)
    (appends :
      ∀ q other, ∃ joined,
        next.queueOf q other = released.queueOf q other ++ joined)
    (trace : next.trace = released.trace ++ events)
    (turns : ∀ d s, .started d s ∈ events → Turn w cause next d s) :
    Fair w cause next := by
  have grows : JoinsBehind released next := by
    intro q other
    obtain ⟨joined, isNext⟩ := appends q other
    exact ⟨_, joined, isNext, List.Sublist.refl _⟩
  cases putsBack with
  | starts present queue started =>
      obtain ⟨was, now, joins⟩ := popped_queue present queue started.pools
      obtain ⟨first, added, only⟩ := started.starts
      have before : released.trace = w.trace ++ first := added
      refine ⟨joins.trans grows, first ++ events, ?_, fun d s member => ?_⟩
      · rw [trace, before, List.append_assoc]
      · rcases List.mem_append.mp member with old | new
        · obtain ⟨rfl, rfl⟩ := only d s old
          obtain ⟨joined, isNext⟩ := appends p _
          exact .first was (by rw [isNext, now])
        · exact turns d s new
  | frees present queue busy =>
      refine ⟨JoinsBehind.trans (JoinsBehind.congr fun q other => ?_) grows,
        events, trace, turns⟩
      rw [queueOf_setEntry]
      split
      · rename_i same
        obtain ⟨rfl, rfl⟩ := same
        rw [queueOf_some present]
      · rfl

theorem PutsBack.fair_calm
    {w released next : World}
    {p c : Nat}
    (cause : Cause)
    (putsBack : PutsBack w p c released)
    (still : Calm released next) :
    Fair w cause next := by
  obtain ⟨events, trace, quiet⟩ := still.trace
  refine putsBack.fair (fun q other => ⟨[], ?_⟩) trace fun d s member => ?_
  · rw [still.queue, List.append_nil]
  · have isQuiet := quiet _ member
    cases isQuiet

theorem Fair.refusesNext
    {w next : World}
    {p c : Nat}
    (cause : Cause)
    (refuses : RefusesNext w p c next) :
    Fair w cause next := by
  obtain ⟨entry, place, rest, present, queue, refused⟩ := refuses
  obtain ⟨_, _, joins⟩ := popped_queue present queue refused.pools
  obtain ⟨exception, trace⟩ := refused.trace
  refine ⟨joins, _, trace, fun d s member => ?_⟩
  rw [List.mem_singleton] at member
  cases member

/-! ## The pool -/

/-- Finding a client leaves the queues alone; nobody waits where one is found. -/
theorem Places.queues
    {w placed : World}
    {p c : Nat}
    {key : NetLoc}
    (saturated : Everywhere Saturated w)
    (places : Places w p key c placed) :
    (∀ q other, placed.queueOf q other = w.queueOf q other) ∧
      placed.Busy p key c ∧
      w.queueOf p key = [] := by
  cases places with
  | creates found =>
      rename_i entry
      have nobody : w.queueOf p key = [] ∧ entry.queue = [] := by
        rcases found with ⟨absent, rfl⟩ | ⟨present, _, below⟩
        · exact ⟨by simp [queueOf, absent], rfl⟩
        · have empty : entry.queue = [] := by
            by_contra waits
            have full := (saturated p key entry present waits).2
            omega
          exact ⟨by rw [queueOf_some present, empty], empty⟩
      refine ⟨fun q other => ?_, ?_, nobody.1⟩
      · rw [queueOf_setEntry]
        split
        · rename_i same
          obtain ⟨rfl, rfl⟩ := same
          rw [nobody.1, nobody.2]
        · rfl
      · unfold World.Busy
        rw [setEntry_clients, if_pos ⟨rfl, rfl⟩]
        exact ⟨_, rfl, List.mem_insert_self⟩
  | reuses present isFree =>
      rename_i entry
      have empty : entry.queue = [] := by
        by_contra waits
        rw [(saturated p key entry present waits).1] at isFree
        cases isFree
      refine ⟨fun q other => ?_, ?_, ?_⟩
      · rw [queueOf_setEntry]
        split
        · rename_i same
          obtain ⟨rfl, rfl⟩ := same
          rw [queueOf_some present]
        · rfl
      · unfold World.Busy
        rw [setEntry_clients, if_pos ⟨rfl, rfl⟩]
        exact ⟨_, rfl, List.mem_insert_self⟩
      · rw [queueOf_some present, empty]

theorem Pooled.appends
    {w next : World}
    {p r : Nat}
    (saturated : Everywhere Saturated w)
    (pooled : Pooled w p r next)
    (q : Nat)
    (other : NetLoc) :
    ∃ joined, next.queueOf q other = w.queueOf q other ++ joined := by
  cases pooled with
  | starts places started =>
      refine ⟨[], ?_⟩
      rw [queueOf_congr started.pools, (places.queues saturated).1,
        List.append_nil]
  | queues present noneFree full =>
      rename_i entry
      have same :
          (w.enqueue p r (w.netloc r) entry).queueOf q other =
            (w.setEntry p (w.netloc r)
              (some
                { entry with
                  queue :=
                    entry.queue ++ [{ ticket := entry.nextTicket, req := r }]
                  generation := entry.generation + 1
                  nextTicket := entry.nextTicket + 1 })).queueOf q other :=
        rfl
      rw [same, queueOf_setEntry]
      split
      · rename_i isKey
        obtain ⟨rfl, rfl⟩ := isKey
        rw [queueOf_some present]
        exact ⟨_, rfl⟩
      · exact ⟨[], (List.append_nil _).symm⟩

/-- The pool starts a request where nobody waits, or it starts nothing. -/
theorem Pooled.turns
    {w next : World}
    {p r : Nat}
    (saturated : Everywhere Saturated w)
    (pooled : Pooled w p r next) :
    ∃ events,
      next.trace = w.trace ++ events ∧
        ∀ d s,
          .started d s ∈ events →
          s = r ∧
            w.queueOf p (w.netloc r) = [] ∧
            next.Busy p (w.netloc r) d ∧
            (∃ placed, Places w p (w.netloc r) d placed) ∧
            (next.requests r).toRequestFields =
              (w.requests r).toRequestFields.withScheme := by
  cases pooled with
  | starts places started =>
      obtain ⟨_, busy, nobody⟩ := places.queues saturated
      obtain ⟨_, requests, trace⟩ := places.same
      obtain ⟨events, added, only⟩ := started.starts
      refine ⟨events, by rw [added, trace], fun d s member => ?_⟩
      obtain ⟨rfl, rfl⟩ := only d s member
      refine ⟨rfl, nobody, ?_, ⟨_, places⟩, ?_⟩
      · unfold World.Busy
        rw [started.pools]
        exact busy
      · rw [started.fields, requests]
  | queues present noneFree full =>
      refine ⟨[.queued p r], rfl, fun d s member => ?_⟩
      rw [List.mem_singleton] at member
      cases member

theorem Pooled.fair
    {w next : World}
    {p r : Nat}
    (cause : Cause)
    (saturated : Everywhere Saturated w)
    (pooled : Pooled w p r next) :
    Fair w cause next := by
  obtain ⟨events, trace, turns⟩ := pooled.turns saturated
  refine ⟨fun q other => ?_, events, trace, fun d s member => ?_⟩
  · obtain ⟨joined, isNext⟩ := pooled.appends saturated q other
    exact ⟨_, joined, isNext, List.Sublist.refl _⟩
  · obtain ⟨rfl, nobody, busy, _, fields⟩ := turns d s member
    exact .taken fields busy nobody

theorem Places.calm
    {w placed : World}
    {p c : Nat}
    {key : NetLoc}
    (saturated : Everywhere Saturated w)
    (places : Places w p key c placed) :
    Calm w placed where
  config := places.same.1
  queue := (places.queues saturated).1
  request d r active := by
    cases places with
    | creates _ =>
        by_cases same : d = w.nextClient
        · subst same
          simp [World.newClient, World.setClient, World.setEntry] at active
        · simpa [World.newClient, World.setClient, World.setEntry, same]
            using active
    | reuses _ _ =>
        exact active
  trace := ⟨[], by simp [places.same.2.2], by simp⟩

theorem PoolRefuses.calm
    {w next : World}
    {p r : Nat}
    (saturated : Everywhere Saturated w)
    (refuses : PoolRefuses w p r next) :
    Calm w next := by
  cases refuses with
  | early exception =>
      exact Calm.emit w rfl
  | late isPooled places refused =>
      subst isPooled
      have owned := saturated.setRequest r { w.requests r with pool := some p }
      exact ((Calm.setRequest w r _).trans (places.calm owned)).trans
        (Calm.of_refused refused)

/-- Where a client is found after `putback`, nobody waited before it. -/
theorem PutsBack.nobody
    {w released next placed : World}
    {p c d : Nat}
    {key : NetLoc}
    (saturated : Everywhere Saturated w)
    (putsBack : PutsBack w p c released)
    (pools : next.pools = released.pools)
    (places : Places next p key d placed)
    (nobody : next.queueOf p key = []) :
    w.queueOf p key = [] := by
  rw [queueOf_congr pools] at nobody
  cases putsBack with
  | frees present queue busy =>
      rw [queueOf_setEntry] at nobody
      split at nobody
      · rename_i same
        obtain ⟨_, rfl⟩ := same
        rw [queueOf_some present, queue]
      · exact nobody
  | starts present queue started =>
      rename_i entry place rest
      by_cases same : key = (w.clients c).netloc
      · subst same
        have full := saturated p _ entry present (by simp [queue])
        have isNext :
            (next.pools p).clients (w.clients c).netloc =
              some { entry with queue := rest } := by
          rw [pools, started.pools, setEntry_clients, if_pos ⟨rfl, rfl⟩]
        have limit :
            (next.pools p).maxConnections = (w.pools p).maxConnections := by
          rw [pools, started.pools, setEntry_limit]
        cases places with
        | creates found =>
            rcases found with ⟨absent, _⟩ | ⟨isPresent, _, below⟩
            · rw [isNext] at absent
              cases absent
            · rw [isNext] at isPresent
              cases isPresent
              rw [limit] at below
              exact (Nat.not_lt.mpr full.2 below).elim
        | reuses isPresent isFree =>
            rw [isNext] at isPresent
            cases isPresent
            simp only [full.1] at isFree
            cases isFree
      · rw [queueOf_congr started.pools, queueOf_setEntry,
          if_neg fun both => same both.2] at nobody
        exact nobody

theorem PutsBack.config
    {w released : World}
    {p c : Nat}
    (putsBack : PutsBack w p c released) :
    released.config = w.config := by
  cases putsBack with
  | starts _ _ started =>
      exact started.config
  | frees _ _ _ =>
      rfl

/-- A redirected request goes to another client behind those that wait there. -/
theorem PutsBack.fair_pooled
    {w released offered next : World}
    {p c r : Nat}
    (cause : Cause)
    (saturated : Everywhere Saturated w)
    (putsBack : PutsBack w p c released)
    (still : Calm released offered)
    (pools : offered.pools = released.pools)
    (trace : offered.trace = released.trace)
    (again : Everywhere Saturated offered)
    (pooled : Pooled offered p r next) :
    Fair w cause next := by
  obtain ⟨events, added, turns⟩ := pooled.turns again
  refine putsBack.fair (fun q other => ?_) (by rw [added, trace])
    fun d s member => ?_
  · obtain ⟨joined, isNext⟩ := pooled.appends again q other
    exact ⟨joined, by rw [isNext, still.queue]⟩
  · obtain ⟨rfl, nobody, busy, ⟨placed, places⟩, fields⟩ := turns d s member
    have config : offered.config = w.config :=
      still.config.trans putsBack.config
    have before := putsBack.nobody saturated pools places nobody
    unfold World.netloc at busy before
    rw [config] at busy before
    exact .taken fields busy before

/-! ## Runs -/

theorem Act.fair
    {w next : World}
    (cause : Cause)
    (saturated : Everywhere Saturated w)
    (act : Act w next) :
    Fair w cause next := by
  cases act with
  | tunes tunes =>
      exact (Calm.of_tunes tunes).fair
  | ends tunes ends =>
      obtain ⟨_, left, released, leaves, releases, rfl⟩ := ends
      have still :=
        ((Calm.of_tunes tunes).trans (Calm.detached _ _)).trans
          (Calm.of_tunes leaves)
      cases releases with
      | alone _ =>
          exact (still.trans (Calm.ending _ _)).fair
      | back _ putsBack =>
          exact still.before (putsBack.fair_calm cause (Calm.ending _ _))
  | follows tunes follows =>
      cases follows with
      | same active leaves started =>
          obtain ⟨events, added, only⟩ := started.starts
          have still :=
            ((Calm.of_tunes tunes).trans (Calm.leaving _ _ _)).trans
              (Calm.of_tunes leaves)
          obtain ⟨quietEvents, before, quiet⟩ := still.trace
          refine ⟨JoinsBehind.congr fun q other => ?_, quietEvents ++ events,
            by rw [added, before, List.append_assoc], fun d s member => ?_⟩
          · rw [queueOf_congr started.pools, still.queue]
          · rcases List.mem_append.mp member with old | new
            · have isQuiet := quiet _ old
              cases isQuiet
            · obtain ⟨rfl, rfl⟩ := only d s new
              rw [tunes.request] at active
              exact .again active
      | pooled _ _ leaves putsBack pooled =>
          have left := ((saturated.tunes tunes).leaving _ _).tunes leaves
          have back := left.putsBack lasting_saturated putsBack
          have still :=
            ((Calm.of_tunes tunes).trans (Calm.leaving _ _ _)).trans
              (Calm.of_tunes leaves)
          refine still.before
            (putsBack.fair_pooled cause left ?_ ?_ ?_ ?_ pooled)
          · exact (Calm.of_tunes (Tunes.weak _ _ true)).trans
              (Calm.setRequest _ _ _)
          · rfl
          · rfl
          · exact (back.weak _ true).setRequest _ _
  | dequeues tunes _ =>
      exact ((Calm.of_tunes tunes).trans (Calm.ending _ _)).fair

theorem Mishap.fair
    {w next : World}
    (cause : Cause)
    (saturated : Everywhere Saturated w)
    (mishap : Mishap w next) :
    Fair w cause next := by
  cases mishap with
  | tunes tunes =>
      exact (Calm.of_tunes tunes).fair
  | ends tunes ends =>
      obtain ⟨_, left, p, leaves, _, refuses⟩ := ends
      have still :=
        ((Calm.of_tunes tunes).trans (Calm.detached _ _)).trans
          (Calm.of_tunes leaves)
      exact still.before (Fair.refusesNext cause refuses)
  | restarts tunes _ leaves refused =>
      have still :=
        ((Calm.of_tunes tunes).trans (Calm.leaving _ _ _)).trans
          (Calm.of_tunes leaves)
      exact (still.trans (Calm.of_refused refused)).fair
  | leaves tunes _ _ leaves refuses =>
      have still :=
        ((Calm.of_tunes tunes).trans (Calm.leaving _ _ _)).trans
          (Calm.of_tunes leaves)
      exact still.before (Fair.refusesNext cause refuses)
  | pooled tunes _ _ leaves putsBack refuses =>
      have left := ((saturated.tunes tunes).leaving _ _).tunes leaves
      have back := left.putsBack lasting_saturated putsBack
      have still :=
        ((Calm.of_tunes tunes).trans (Calm.leaving _ _ _)).trans
          (Calm.of_tunes leaves)
      refine still.before (putsBack.fair_calm cause ?_)
      exact (Calm.of_tunes (Tunes.weak _ _ true)).trans
        (refuses.calm (back.weak _ true))

theorem Fair.either
    {w middle next : World}
    {cause : Cause}
    (still : Calm w middle)
    (saturated : Everywhere Saturated middle)
    (either : Act middle next ∨ Mishap middle next) :
    Fair w cause next := by
  rcases either with act | mishap
  · exact still.before (act.fair cause saturated)
  · exact still.before (mishap.fair cause saturated)

/-- Every deed is fair while nobody waits where a client could be found. -/
theorem Deed.fair
    {w next : World}
    {cause : Cause}
    (saturated : Everywhere Saturated w)
    (deed : Deed w cause next) :
    Fair w cause next := by
  cases deed with
  | act act =>
      exact act.fair cause saturated
  | mishap mishap =>
      exact mishap.fair cause saturated
  | parses _ either =>
      exact Fair.either (Calm.parseShift w _ _ _ _)
        (saturated.parseShift _ _ _ _) either
  | erases present same inside returned =>
      rename_i p key ticket generation entry
      simp only [cancelReturn, present, same, inside, and_self, if_true,
        CallMachine.Outcome.next.injEq, and_true] at returned
      subst returned
      refine ⟨fun q other => ?_, [], by simp [World.setEntry], by simp⟩
      refine ⟨_, [], (List.append_nil _).symm, ?_⟩
      rw [queueOf_setEntry]
      split
      · rename_i isKey
        obtain ⟨rfl, rfl⟩ := isKey
        rw [queueOf_some present]
        exact List.eraseIdx_sublist _ _
      · exact List.Sublist.refl _
  | edits _ =>
      exact (Calm.setRequest w _ _).fair
  | creates loop =>
      refine Calm.fair ⟨rfl, fun _ _ => rfl, fun c r active => ?_, [], ?_,
        by simp⟩
      · by_cases same : c = w.nextClient
        · subst same
          simp [World.newClient, World.setClient] at active
        · simpa [World.newClient, World.setClient, same] using active
      · simp [World.newClient, World.setClient]
  | begins _ started =>
      obtain ⟨events, added, only⟩ := started.starts
      refine Fair.emit ⟨JoinsBehind.congr (queueOf_congr started.pools), events,
        added, fun d s member => ?_⟩ rfl
      obtain ⟨rfl, rfl⟩ := only d s member
      exact .direct rfl
  | refuses _ refused =>
      exact (Calm.of_refused refused).fair
  | submits offers _ pooled =>
      have offered := saturated.tunes offers.tunes
      refine Fair.emit ((Calm.of_tunes offers.tunes).before ?_) rfl
      exact (Calm.setRequest _ _ _).before
        (pooled.fair _ (offered.setRequest _ _))
  | rejects offers refuses =>
      exact ((Calm.of_tunes offers.tunes).trans
        (refuses.calm (saturated.tunes offers.tunes))).fair
  | limits p value =>
      refine Calm.fair ⟨rfl, fun q key => ?_, fun _ _ => id, [], by simp,
        by simp⟩
      by_cases same : q = p
      · subst same
        simp [queueOf]
      · simp [queueOf, same]
  | advances _ _ =>
      refine Calm.fair ?_
      exact Calm.congr rfl rfl rfl rfl
  | delivers _ =>
      have counted : Calm w { w with nextBuffer := w.nextBuffer + 1 } :=
        Calm.congr rfl rfl rfl rfl
      exact (counted.trans (Calm.emit _ rfl)).fair
  | rings _ either =>
      exact Fair.either (Calm.setRequest w _ _) (saturated.setRequest _ _)
        either
  | sweeps p =>
      refine ⟨fun q key => ?_, [], by simp [checkInactivity], by simp⟩
      refine ⟨_, [], (List.append_nil _).symm, ?_⟩
      cases present : ((w.checkInactivity p).pools q).clients key with
      | none =>
          simp [queueOf, present]
      | some entry =>
          obtain ⟨old, wasPresent, free, rfl, _, _⟩ :=
            checkInactivity_from present
          rw [queueOf_some present, queueOf_some wasPresent]

theorem KeepsTurns.permits
    {config : Config}
    {label : Label}
    (keeps : KeepsTurns config label) :
    Permits (Suits Saturated) config label := by
  intro cause causes p value isLimit key entry present saturated waits
  subst isLimit
  cases causes with
  | input _ =>
      exact ⟨(saturated waits).1, keeps p value rfl key entry present waits⟩

/--
In every run in which no limit is raised above the number of busy clients where
requests wait, requests are started in their turn.
-/
theorem fairRun_of_keepsTurns
    (w : World)
    (labels : List Label)
    (fresh : Fresh w)
    (keeps : machine.Guarded KeepsTurns (start w) labels) :
    FairRun w labels := by
  intro first label rest config next isRun ran stepped
  rw [isRun] at keeps
  have suits := keeps.front.imp fun _ _ keeps => KeepsTurns.permits keeps
  have saturated := everywhere_of_suits lasting_saturated fresh suits ran
  exact (step_deed stepped).imp id
    fun ⟨cause, causes, deed⟩ => ⟨cause, causes, deed.fair saturated⟩

/-- The second request waits until the first one is answered. -/
def startedInTurn : List Label :=
  [.input (.maxConnections 0 1),
    .input (.edit 0 { uri := some { scheme := "http", host := "here" } }),
    .input (.edit 1 { uri := some { scheme := "http", host := "here" } }),
    .input (.poolRequest 0 0),
    .input (.poolRequest 0 1),
    .input (.onConnect 0 none),
    .input (.onRead 0 [.done { code := 200 }]),
    .tick]

theorem fairRun_startedInTurn : FairRun (initial {}) startedInTurn := by
  refine fairRun_of_keepsTurns _ _ (fresh_initial {}) ?_
  have plain :
      ∀ {config : Config} {label : Label},
        (∀ p value, label ≠ .input (.maxConnections p value)) →
        KeepsTurns config label :=
    fun other p value isLimit => (other p value isLimit).elim
  refine .cons ?_ rfl (.cons (plain (by simp)) rfl (.cons (plain (by simp)) rfl
    (.cons (plain (by simp)) rfl (.cons (plain (by simp)) rfl
      (.cons (plain (by simp)) rfl (.cons (plain (by simp)) rfl
        (.cons (plain (by simp)) rfl trivial)))))))
  intro p value _ key entry present
  cases present

/-- The limit is raised while a request waits, and then one more is submitted. -/
def overtaken : List Label :=
  [.input (.maxConnections 0 1),
    .input (.edit 0 { uri := some { scheme := "http", host := "here" } }),
    .input (.edit 1 { uri := some { scheme := "http", host := "here" } }),
    .input (.edit 2 { uri := some { scheme := "http", host := "here" } }),
    .input (.poolRequest 0 0),
    .input (.poolRequest 0 1),
    .input (.maxConnections 0 2)]

/-- The third request is started, and the only queue is that of the second one. -/
theorem overtaken_reached :
    ∃ config next,
      run? (initial {}) overtaken = some config ∧
        machine.step? config (.input (.poolRequest 0 2)) = some next ∧
        config.state.queueOf 0 { host := "here", port := 80 } =
          [{ ticket := 0, req := 1 }] ∧
        .started 1 2 ∈ next.state.trace.drop config.state.trace.length ∧
        (config.state.clients 1).request = none ∧
        (∀ p, p ≠ 0 →
          ∀ key,
            (config.state.pools p).clients key = none ∧
              (next.state.pools p).clients key = none) ∧
        ∀ key, key ≠ { host := "here", port := 80 } →
          (config.state.pools 0).clients key = none ∧
            (next.state.pools 0).clients key = none := by
  refine ⟨_, _, rfl, rfl, rfl, by decide, rfl, fun p other key => ⟨?_, ?_⟩,
    fun key other => ⟨?_, ?_⟩⟩
  · iterate 4
      show (Function.update (β := fun _ => Pool) _ 0 _ p).clients key = none
      rw [Function.update_of_ne other]
    rfl
  · iterate 5
      show (Function.update (β := fun _ => Pool) _ 0 _ p).clients key = none
      rw [Function.update_of_ne other]
    rfl
  · iterate 2
      show Function.update (β := fun _ => Option NetLocList) _
        { host := "here", port := 80 } _ key = none
      rw [Function.update_of_ne other]
    rfl
  · iterate 3
      show Function.update (β := fun _ => Option NetLocList) _
        { host := "here", port := 80 } _ key = none
      rw [Function.update_of_ne other]
    rfl

/-- The third request overtakes the second one. -/
theorem overtaken_not_fairRun :
    ¬ FairRun (initial {}) (overtaken ++ [.input (.poolRequest 0 2)]) := by
  intro fair
  obtain ⟨config, next, ran, stepped, queue, isNew, idle, noPool, noKey⟩ :=
    overtaken_reached
  rcases fair overtaken (.input (.poolRequest 0 2)) [] config next rfl ran
    stepped with same | ⟨cause, causes, _, events, trace, turns⟩
  · rw [same, List.drop_length] at isNew
    cases isNew
  rw [trace, List.drop_left] at isNew
  have here :
      ∀ p key,
        (config.state.pools p).clients key ≠ none ∨
          (next.state.pools p).clients key ≠ none →
        p = 0 ∧ key = { host := "here", port := 80 } := by
    intro p key present
    by_contra elsewhere
    by_cases isPool : p = 0
    · subst isPool
      have absent := noKey key fun isKey => elsewhere ⟨rfl, isKey⟩
      exact present.elim (fun some => some absent.1) fun some => some absent.2
    · have absent := noPool p isPool key
      exact present.elim (fun some => some absent.1) fun some => some absent.2
  generalize isThird : 2 = third at isNew
  cases turns 1 third isNew with
  | again active =>
      rw [idle] at active
      cases active
  | direct isDirect =>
      subst isDirect
      cases causes
  | taken fields busy nobody =>
      obtain ⟨entry, present, _⟩ := busy
      obtain ⟨rfl, isKey⟩ := here _ _ (Or.inr (by rw [present]; simp))
      rw [isKey, queue] at nobody
      cases nobody
  | first waits popped =>
      rename_i p key place rest joined
      have present : (config.state.pools p).clients key ≠ none := by
        intro absent
        simp [queueOf, absent] at waits
      obtain ⟨rfl, rfl⟩ := here _ _ (Or.inl present)
      rw [queue] at waits
      cases waits
      cases isThird

end UniEventHttp.ClientSide.World
