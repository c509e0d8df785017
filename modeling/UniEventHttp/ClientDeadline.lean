import UniEventHttp.ClientActs
import UniEventHttp.ClientKeys

namespace UniEventHttp.ClientSide.World

/-!
# One deadline for each submission

A request keeps its timer, and with it the loop of the first client or pool that
it was given to.  As long as it is given to clients and pools of this loop only,
the timer of a request in flight is listened to, belongs to the loop of whoever
has the request, and expires at the deadline of the submission: a redirect takes
the listener away, and the next start or queue gives it back without arming the
timer again.
-/

/-! ## The property -/

/-- The time and the timeout of the submission that has not ended. -/
def admitted (r : Nat) (trace : List Event) : Option (Nat × Nat) :=
  ongoing (fun _ _ time timeout => (time, timeout)) r trace

/-- The timer of the request runs on the loop of whoever has the request. -/
def Ticks (w : World) (r expires : Nat) (timer : Timer) : Prop :=
  (w.requests r).timer = some timer ∧
    timer.deadline = some expires ∧
    (∀ c,
      (w.clients c).request = some r → timer.loop = (w.clients c).loop) ∧
    ∀ p key, w.Waits p key r → timer.loop = (w.pools p).loop

/-- The timer of the request runs, and the request listens to it. -/
def Timed (w : World) (r expires : Nat) : Prop :=
  ∃ timer, w.Ticks r expires timer ∧ timer.listened = true

/-- Every submission with a timeout has its own deadline, whenever nothing runs. -/
def OneDeadline (config : Config) : Prop :=
  config.stack = [] →
  ∀ r time timeout,
    admitted r config.state.trace = some (time, timeout) →
    0 < timeout →
    config.state.Timed r (time + timeout)

/-! ## The invariant -/

/-- A client has the request, or a pool that no client has it from. -/
def Holding (w : World) (r : Nat) : Prop :=
  (∃ c,
    (w.requests r).client = some c ∧ (w.clients c).request = some r) ∨
    (w.requests r).client = none ∧ ∃ p, (w.requests r).pool = some p

/-- Clients are on the loops of their pools, and submissions have their timers. -/
structure Clocks (w : World) (loose : Option Nat) : Prop where
  home :
    ∀ c p,
      (w.clients c).pool = some p → (w.clients c).loop = (w.pools p).loop
  free :
    ∀ p key c,
      w.Free p key c →
      c < w.nextClient ∧ (w.clients c).loop = (w.pools p).loop
  known : ∀ c r, (w.clients c).request = some r → c < w.nextClient
  held :
    ∀ r,
      (admitted r w.trace).isSome → some r ≠ loose → w.Holding r
  lasts :
    ∀ r time timeout,
      admitted r w.trace = some (time, timeout) →
      0 < timeout →
      (w.requests r).timeout ≠ 0
  timed :
    ∀ r time timeout,
      admitted r w.trace = some (time, timeout) →
      0 < timeout →
      some r ≠ loose →
      w.Timed r (time + timeout)

/-- Changes that leave submissions, their timers and their holders alone. -/
structure Even (w next : World) : Prop where
  nextClient : w.nextClient ≤ next.nextClient
  loop : ∀ c, (next.clients c).loop = (w.clients c).loop
  pool : ∀ c, (next.clients c).pool = (w.clients c).pool
  request : ∀ c, (next.clients c).request = (w.clients c).request
  loops : ∀ p, (next.pools p).loop = (w.pools p).loop
  waits : ∀ p key r, next.Waits p key r → w.Waits p key r
  link : ∀ r, (next.requests r).client = (w.requests r).client
  owner : ∀ r, (next.requests r).pool = (w.requests r).pool
  timer : ∀ r, (next.requests r).timer = (w.requests r).timer
  timeout : ∀ r, (next.requests r).timeout = (w.requests r).timeout
  admitted : ∀ r, admitted r next.trace = admitted r w.trace

/-- Nobody new has the request. -/
theorem Ticks.mono
    {w next : World}
    {r expires : Nat}
    {timer : Timer}
    (ticks : w.Ticks r expires timer)
    (isTimer : (next.requests r).timer = some timer)
    (active :
      ∀ c,
        (next.clients c).request = some r →
        (w.clients c).request = some r ∧
          (next.clients c).loop = (w.clients c).loop)
    (waits :
      ∀ p key,
        next.Waits p key r →
        w.Waits p key r ∧ (next.pools p).loop = (w.pools p).loop) :
    next.Ticks r expires timer := by
  refine ⟨isTimer, ticks.2.1, ?_, ?_⟩
  · intro c isActive
    obtain ⟨was, sameLoop⟩ := active c isActive
    rw [sameLoop]
    exact ticks.2.2.1 c was
  · intro p key isWaiting
    obtain ⟨was, sameLoop⟩ := waits p key isWaiting
    rw [sameLoop]
    exact ticks.2.2.2 p key was

theorem Ticks.even
    {w next : World}
    {r expires : Nat}
    {timer : Timer}
    (ticks : w.Ticks r expires timer)
    (even : Even w next) :
    next.Ticks r expires timer :=
  ticks.mono ((even.timer r).trans ticks.1)
    (fun c active => ⟨by rwa [← even.request], even.loop c⟩)
    fun p key waiting => ⟨even.waits p key r waiting, even.loops p⟩

theorem Clocks.even
    {w next : World}
    {loose : Option Nat}
    (clocks : Clocks w loose)
    (even : Even w next)
    (free :
      ∀ p key c,
        next.Free p key c →
        w.Free p key c ∨
          c < w.nextClient ∧ (w.clients c).loop = (w.pools p).loop) :
    Clocks next loose where
  home c p inPool := by
    rw [even.pool] at inPool
    rw [even.loop, even.loops]
    exact clocks.home c p inPool
  free p key c isFree := by
    obtain ⟨known, loop⟩ :=
      (free p key c isFree).elim (clocks.free p key c) id
    rw [even.loop, even.loops]
    exact ⟨Nat.lt_of_lt_of_le known even.nextClient, loop⟩
  known c r active := by
    rw [even.request] at active
    exact Nat.lt_of_lt_of_le (clocks.known c r active) even.nextClient
  held r isAdmitted notLoose := by
    rw [even.admitted] at isAdmitted
    unfold Holding
    simp only [even.link, even.owner, even.request]
    exact clocks.held r isAdmitted notLoose
  lasts r time timeout isAdmitted positive := by
    rw [even.admitted] at isAdmitted
    rw [even.timeout]
    exact clocks.lasts r time timeout isAdmitted positive
  timed r time timeout isAdmitted positive notLoose := by
    rw [even.admitted] at isAdmitted
    obtain ⟨timer, ticks, listened⟩ :=
      clocks.timed r time timeout isAdmitted positive notLoose
    exact ⟨timer, ticks.even even, listened⟩

theorem minor_keepsSubmissions
    {event : Event}
    (minor : isMinor event = true) :
    keepsSubmissions event = true := by
  cases event <;> simp_all [isMinor, keepsSubmissions]

theorem Tunes.even
    {w next : World}
    (tunes : Tunes w next) :
    Even w next where
  nextClient := Nat.le_of_eq tunes.nextClient.symm
  loop := tunes.loop
  pool := tunes.pool
  request := tunes.request
  loops p := by rw [tunes.pools]
  waits p key r isWaiting := by simpa [Waits, tunes.pools] using isWaiting
  link := tunes.link
  owner := tunes.owner
  timer := tunes.timer
  timeout := tunes.timeout
  admitted r := by
    obtain ⟨events, trace, minor⟩ := tunes.trace
    rw [trace]
    exact ongoing_append _ r w.trace events fun event member =>
      minor_keepsSubmissions (minor event member)

theorem Clocks.tunes
    {w next : World}
    {loose : Option Nat}
    (clocks : Clocks w loose)
    (tunes : Tunes w next) :
    Clocks next loose :=
  clocks.even tunes.even fun p key c isFree =>
    Or.inl (by simpa [Free, tunes.pools] using isFree)

theorem Clocks.weaken
    {w : World}
    (clocks : Clocks w none)
    (loose : Option Nat) :
    Clocks w loose where
  home := clocks.home
  free := clocks.free
  known := clocks.known
  held r isAdmitted _ := clocks.held r isAdmitted (by simp)
  lasts := clocks.lasts
  timed r time timeout isAdmitted positive _ :=
    clocks.timed r time timeout isAdmitted positive (by simp)

/-! ## Starting and queueing -/

theorem ensureTimerActive_ticking
    {request : Request}
    {timer : Timer}
    {expires : Nat}
    (loop : Nat)
    (now : Nat → Nat)
    (lasts : request.timeout ≠ 0)
    (isTimer : request.timer = some timer)
    (deadline : timer.deadline = some expires) :
    (request.ensureTimerActive loop now).timer =
      some { timer with listened := true } := by
  unfold Request.ensureTimerActive
  rw [if_neg lasts]
  simp [isTimer, deadline]

/-- A timer that is idle or not there yet is armed on the loop. -/
theorem ensureTimerActive_idle
    {request : Request}
    {loop : Nat}
    {now : Nat → Nat}
    (lasts : request.timeout ≠ 0)
    (idle :
      ∀ timer ∈ request.timer, timer.deadline = none ∧ timer.loop = loop) :
    (request.ensureTimerActive loop now).timer =
      some
        { loop := loop
          deadline := some (now loop + request.timeout)
          listened := true } := by
  unfold Request.ensureTimerActive
  rw [if_neg lasts]
  cases isTimer : request.timer with
  | none =>
      simp
  | some timer =>
      obtain ⟨inactive, sameLoop⟩ := idle timer isTimer
      simp [inactive, sameLoop]

/-- The request may go on with the timer that it has, on a loop. -/
def Resumes (w : World) (r loop : Nat) : Prop :=
  ∀ time timeout,
    admitted r w.trace = some (time, timeout) →
    0 < timeout →
    ∃ timer, w.Ticks r (time + timeout) timer ∧ timer.loop = loop

theorem Resumes.even
    {w next : World}
    {r loop : Nat}
    (resumes : w.Resumes r loop)
    (even : Even w next) :
    next.Resumes r loop := by
  intro time timeout isAdmitted positive
  rw [even.admitted] at isAdmitted
  obtain ⟨timer, ticks, sameLoop⟩ := resumes time timeout isAdmitted positive
  exact ⟨timer, ticks.even even, sameLoop⟩

theorem Started.timer
    {w next : World}
    {c r : Nat}
    (started : Started w c r next) :
    (next.requests r).timer =
      ((w.requests r).ensureTimerActive (w.clients c).loop w.now).timer := by
  rw [started.request]

theorem Started.link
    {w next : World}
    {c r : Nat}
    (started : Started w c r next) :
    (next.requests r).client = some c := by
  rw [started.request]

theorem Started.loop
    {w next : World}
    {c r : Nat}
    (started : Started w c r next)
    (d : Nat) :
    (next.clients d).loop = (w.clients d).loop := by
  by_cases same : d = c
  · subst d
    rw [started.client]
  · rw [started.clients d same]

theorem Started.pool
    {w next : World}
    {c r : Nat}
    (started : Started w c r next)
    (d : Nat) :
    (next.clients d).pool = (w.clients d).pool := by
  by_cases same : d = c
  · subst d
    rw [started.client]
  · rw [started.clients d same]

/-- Another request keeps its timer. -/
theorem Ticks.started
    {w next : World}
    {c r s expires : Nat}
    {timer : Timer}
    (ticks : w.Ticks s expires timer)
    (started : Started w c r next)
    (different : s ≠ r) :
    next.Ticks s expires timer := by
  obtain ⟨isTimer, deadline, active, waiting⟩ := ticks
  refine ⟨by rwa [started.requests s different], deadline, ?_, ?_⟩
  · intro d isActive
    by_cases same : d = c
    · subst d
      rw [started.active] at isActive
      exact (different (Option.some.inj isActive).symm).elim
    · rw [started.clients d same] at isActive ⊢
      exact active d isActive
  · intro p key isWaiting
    rw [started.pools]
    exact waiting p key (by simpa [Waits, started.pools] using isWaiting)

/-- The timer of the request that is started is listened to again. -/
theorem Ticks.resumed
    {w next : World}
    {c r expires : Nat}
    {timer : Timer}
    (ticks : w.Ticks r expires timer)
    (started : Started w c r next)
    (lasts : (w.requests r).timeout ≠ 0)
    (sameLoop : timer.loop = (w.clients c).loop) :
    next.Ticks r expires { timer with listened := true } := by
  obtain ⟨isTimer, deadline, active, waiting⟩ := ticks
  refine ⟨?_, deadline, ?_, ?_⟩
  · rw [started.timer]
    exact ensureTimerActive_ticking _ _ lasts isTimer deadline
  · intro d isActive
    rw [started.loop]
    by_cases same : d = c
    · subst d
      exact sameLoop
    · rw [started.clients d same] at isActive
      exact active d isActive
  · intro p key isWaiting
    rw [started.pools]
    exact waiting p key (by simpa [Waits, started.pools] using isWaiting)

theorem Clocks.started
    {w next : World}
    {c r : Nat}
    {loose after : Option Nat}
    (clocks : Clocks w loose)
    (started : Started w c r next)
    (known : c < w.nextClient)
    (resumes : w.Resumes r (w.clients c).loop)
    (only : ∀ s, s ≠ r → some s ≠ after → some s ≠ loose) :
    Clocks next after where
  home d p inPool := by
    rw [started.pool] at inPool
    rw [started.loop, started.pools]
    exact clocks.home d p inPool
  free p key d isFree := by
    rw [started.loop, started.pools, started.nextClient]
    exact clocks.free p key d (by simpa [Free, started.pools] using isFree)
  known d s active := by
    rw [started.nextClient]
    by_cases same : d = c
    · rw [same]
      exact known
    · rw [started.clients d same] at active
      exact clocks.known d s active
  held s isAdmitted notLoose := by
    by_cases same : s = r
    · subst s
      exact Or.inl ⟨c, started.link, started.active⟩
    · rw [admitted, started.ongoing] at isAdmitted
      rcases clocks.held s isAdmitted (only s same notLoose) with
        ⟨d, link, active⟩ | waits
      · have different : d ≠ c := by
          rintro rfl
          rw [started.idle] at active
          cases active
        refine Or.inl ⟨d, ?_⟩
        rw [started.clients d different, started.requests s same]
        exact ⟨link, active⟩
      · right
        rwa [started.requests s same]
  lasts s time timeout isAdmitted positive := by
    rw [admitted, started.ongoing] at isAdmitted
    by_cases same : s = r
    · subst same
      rw [started.request]
      exact clocks.lasts s time timeout isAdmitted positive
    · rw [started.requests s same]
      exact clocks.lasts s time timeout isAdmitted positive
  timed s time timeout isAdmitted positive notLoose := by
    rw [admitted, started.ongoing] at isAdmitted
    by_cases same : s = r
    · subst same
      obtain ⟨timer, ticks, sameLoop⟩ :=
        resumes time timeout isAdmitted positive
      have lasts := clocks.lasts s time timeout isAdmitted positive
      exact ⟨_, ticks.resumed started lasts sameLoop, rfl⟩
    · obtain ⟨timer, ticks, listened⟩ :=
        clocks.timed s time timeout isAdmitted positive
          (only s same notLoose)
      exact ⟨timer, ticks.started started same, listened⟩

/-! ## Lists -/

/-- The list of one location is replaced by one with no new requests. -/
theorem Even.setEntry
    {w : World}
    {p : Nat}
    {key : NetLoc}
    {new : NetLocList}
    (queue :
      ∀ place ∈ new.queue, w.Waits p key place.req) :
    Even w (w.setEntry p key (some new)) where
  nextClient := Nat.le_refl _
  loop _ := rfl
  pool _ := rfl
  request _ := rfl
  loops pool := by
    by_cases same : pool = p <;> simp [World.setEntry, same]
  waits pool other r isWaiting := by
    obtain ⟨list, member, isIn⟩ := isWaiting
    rw [setEntry_clients] at member
    split at member
    · rename_i same
      obtain ⟨rfl, rfl⟩ := same
      cases member
      obtain ⟨place, isPlace, rfl⟩ := List.mem_map.mp isIn
      exact queue place isPlace
    · exact ⟨list, member, isIn⟩
  link _ := rfl
  owner _ := rfl
  timer _ := rfl
  timeout _ := rfl
  admitted _ := rfl

/-- The list of one location is replaced by one whose free clients are allowed. -/
theorem Clocks.setEntry
    {w : World}
    {p : Nat}
    {key : NetLoc}
    {new : NetLocList}
    {loose : Option Nat}
    (clocks : Clocks w loose)
    (queue : ∀ place ∈ new.queue, w.Waits p key place.req)
    (free :
      ∀ c ∈ new.free,
        w.Free p key c ∨
          c < w.nextClient ∧ (w.clients c).loop = (w.pools p).loop) :
    Clocks (w.setEntry p key (some new)) loose := by
  refine clocks.even (Even.setEntry queue) ?_
  rintro pool other c ⟨list, member, isIn⟩
  rw [setEntry_clients] at member
  split at member
  · rename_i same
    obtain ⟨rfl, rfl⟩ := same
    cases member
    exact free c isIn
  · exact Or.inl ⟨list, member, isIn⟩

theorem Resumes.started
    {w next : World}
    {c r s loop : Nat}
    {loose : Option Nat}
    (resumes : w.Resumes r loop)
    (clocks : Clocks w loose)
    (started : Started w c s next)
    (here : loop = (w.clients c).loop) :
    next.Resumes r loop := by
  intro time timeout isAdmitted positive
  rw [admitted, started.ongoing] at isAdmitted
  obtain ⟨timer, ticks, sameLoop⟩ := resumes time timeout isAdmitted positive
  by_cases same : r = s
  · subst same
    have lasts := clocks.lasts r time timeout isAdmitted positive
    exact ⟨_, ticks.resumed started lasts (sameLoop.trans here), sameLoop⟩
  · exact ⟨timer, ticks.started started same, sameLoop⟩

/-- A request in flight may go on where it is. -/
theorem Clocks.resumes
    {w : World}
    {loose : Option Nat}
    {r loop : Nat}
    (clocks : Clocks w loose)
    (notLoose : some r ≠ loose)
    (here :
      (∃ c, (w.clients c).request = some r ∧ (w.clients c).loop = loop) ∨
        ∃ p key, w.Waits p key r ∧ (w.pools p).loop = loop) :
    w.Resumes r loop := by
  intro time timeout isAdmitted positive
  obtain ⟨timer, ticks, _⟩ :=
    clocks.timed r time timeout isAdmitted positive notLoose
  refine ⟨timer, ticks, ?_⟩
  rcases here with ⟨c, active, rfl⟩ | ⟨p, key, isWaiting, rfl⟩
  · exact ticks.2.2.1 c active
  · exact ticks.2.2.2 p key isWaiting

/-- A client goes back to its pool, or starts the next request. -/
theorem Clocks.putsBack
    {w next : World}
    {p c : Nat}
    {loose : Option Nat}
    (clocks : Clocks w loose)
    (known : c < w.nextClient)
    (inPool : (w.clients c).pool = some p)
    (ready :
      ∀ r,
        some r = loose →
        (w.requests r).client = none →
        w.Resumes r (w.clients c).loop)
    (putsBack : PutsBack w p c next) :
    Clocks next loose ∧
      ∀ r, w.Resumes r (w.clients c).loop → next.Resumes r (w.clients c).loop := by
  have home := clocks.home c p inPool
  cases putsBack with
  | @starts entry place rest _ present queue started =>
      have fewer :
          ∀ other ∈ rest, w.Waits p (w.clients c).netloc other.req := by
        intro other isOther
        refine ⟨entry, present, List.mem_map_of_mem ?_⟩
        rw [queue]
        exact List.mem_cons_of_mem _ isOther
      have even :
          Even w
            (w.setEntry p (w.clients c).netloc
              (some { entry with queue := rest })) :=
        Even.setEntry fewer
      have popped :
          Clocks
            (w.setEntry p (w.clients c).netloc
              (some { entry with queue := rest })) loose :=
        clocks.setEntry fewer fun d isFree => Or.inl ⟨entry, present, isFree⟩
      have resumes : w.Resumes place.req (w.clients c).loop := by
        by_cases isLoose : some place.req = loose
        · exact ready place.req isLoose started.unlinked
        · have waits : w.Waits p (w.clients c).netloc place.req :=
            ⟨entry, present, by simp [queue]⟩
          exact clocks.resumes isLoose (Or.inr ⟨p, _, waits, home.symm⟩)
      refine ⟨popped.started started known (resumes.even even)
        fun _ _ => id, ?_⟩
      intro r was
      exact (was.even even).started popped started rfl
  | @frees entry present queue isBusy =>
      have none :
          ∀ place ∈ entry.queue, w.Waits p (w.clients c).netloc place.req := by
        simp [queue]
      refine ⟨clocks.setEntry none ?_, ?_⟩
      · intro d isFree
        rcases List.mem_insert_iff.mp isFree with rfl | was
        · exact Or.inr ⟨known, home⟩
        · exact Or.inl ⟨entry, present, was⟩
      · exact fun r was => was.even (Even.setEntry none)

/-! ## Ending a request -/

/-- A client gives its request up. -/
theorem Clocks.detach
    {w : World}
    {c r : Nat}
    {loose : Option Nat}
    (clocks : Clocks w loose)
    (active : (w.clients c).request = some r)
    (only : ∀ s, s ≠ r → some s ≠ loose) :
    Clocks (w.detached c) (some r) := by
  have others : ∀ d, d ≠ c → (w.detached c).clients d = w.clients d := by
    intro d different
    simp [World.detached, World.setClient, different]
  have here :
      ((w.detached c).clients c).loop = (w.clients c).loop ∧
        ((w.detached c).clients c).pool = (w.clients c).pool ∧
        ((w.detached c).clients c).request = none := by
    simp [World.detached, World.setClient]
  have loop :
      ∀ d, ((w.detached c).clients d).loop = (w.clients d).loop := by
    intro d
    by_cases same : d = c
    · rw [same]
      exact here.1
    · rw [others d same]
  have was :
      ∀ d s,
        ((w.detached c).clients d).request = some s →
        (w.clients d).request = some s := by
    intro d s isActive
    by_cases same : d = c
    · rw [same, here.2.2] at isActive
      cases isActive
    · rwa [others d same] at isActive
  refine
    { home := ?_, free := ?_, known := ?_, held := ?_, lasts := clocks.lasts
      timed := ?_ }
  · intro d p inPool
    rw [loop]
    refine clocks.home d p ?_
    by_cases same : d = c
    · rw [same] at inPool ⊢
      rwa [← here.2.1]
    · rwa [others d same] at inPool
  · intro p key d isFree
    rw [loop]
    exact clocks.free p key d isFree
  · exact fun d s isActive => clocks.known d s (was d s isActive)
  · intro s isAdmitted notLoose
    have different : s ≠ r := fun same => notLoose (by rw [same])
    rcases clocks.held s isAdmitted (only s different) with
      ⟨d, link, isActive⟩ | waits
    · refine Or.inl ⟨d, link, ?_⟩
      rw [others d ?_]
      · exact isActive
      · rintro rfl
        rw [active] at isActive
        exact different (Option.some.inj isActive).symm
    · exact Or.inr waits
  · intro s time timeout isAdmitted positive notLoose
    have different : s ≠ r := fun same => notLoose (by rw [same])
    obtain ⟨timer, ⟨isTimer, deadline, isActive, waiting⟩, listened⟩ :=
      clocks.timed s time timeout isAdmitted positive (only s different)
    refine ⟨timer, ⟨isTimer, deadline, ?_, waiting⟩, listened⟩
    intro d still
    rw [loop]
    exact isActive d (was d s still)

/-- The submission of the request that nobody needs to have ends. -/
theorem Clocks.ending
    {w : World}
    {r : Nat}
    (clocks : Clocks w (some r)) :
    Clocks (w.ending r) none := by
  have others : ∀ s, s ≠ r → (w.ending r).requests s = w.requests s := by
    intro s different
    simp [World.ending, World.setRequest, World.emit, different]
  have ends :
      ∀ s,
        admitted s (w.ending r).trace =
          if r = s then none else admitted s w.trace :=
    fun s => ongoing_finished _ s r w.trace
  have stays :
      ∀ s time timeout,
        admitted s (w.ending r).trace = some (time, timeout) →
        s ≠ r ∧ admitted s w.trace = some (time, timeout) := by
    intro s time timeout isAdmitted
    rw [ends] at isAdmitted
    split at isAdmitted
    · cases isAdmitted
    · rename_i different
      exact ⟨fun same => different same.symm, isAdmitted⟩
  refine
    { home := clocks.home, free := clocks.free, known := clocks.known
      held := ?_, lasts := ?_, timed := ?_ }
  · intro s isAdmitted _
    obtain ⟨⟨time, timeout⟩, isSome⟩ := Option.isSome_iff_exists.mp isAdmitted
    obtain ⟨different, was⟩ := stays s time timeout isSome
    have held := clocks.held s (by rw [was]; rfl) (by simpa using different)
    unfold Holding at held ⊢
    rw [others s different]
    exact held
  · intro s time timeout isAdmitted positive
    obtain ⟨different, was⟩ := stays s time timeout isAdmitted
    rw [others s different]
    exact clocks.lasts s time timeout was positive
  · intro s time timeout isAdmitted positive _
    obtain ⟨different, was⟩ := stays s time timeout isAdmitted
    obtain ⟨timer, ⟨isTimer, rest⟩, listened⟩ :=
      clocks.timed s time timeout was positive (by simpa using different)
    exact ⟨timer, ⟨by rwa [others s different], rest⟩, listened⟩

theorem Clocks.releases
    {w next : World}
    {c : Nat}
    {loose : Option Nat}
    (clocks : Clocks w loose)
    (known : c < w.nextClient)
    (ready :
      ∀ r,
        some r = loose →
        (w.requests r).client = none →
        w.Resumes r (w.clients c).loop)
    (releases : Releases w c next) :
    Clocks next loose := by
  cases releases with
  | alone _ =>
      exact clocks
  | back inPool putsBack =>
      exact (clocks.putsBack known inPool ready putsBack).1

theorem detached_client (w : World) (c : Nat) :
    (w.detached c).clients c =
      { w.clients c with request := none, response := none } := by
  simp [World.detached, World.setClient]

/-- The request that leaves a client could go on with its timer. -/
theorem Clocks.resumes_detached
    {w : World}
    {c r : Nat}
    (clocks : Clocks w none)
    (active : (w.clients c).request = some r) :
    (w.detached c).Resumes r (w.clients c).loop := by
  intro time timeout isAdmitted positive
  obtain ⟨timer, ⟨isTimer, deadline, isActive, waiting⟩, _⟩ :=
    clocks.timed r time timeout isAdmitted positive (by simp)
  have sameLoop := isActive c active
  refine ⟨timer, ⟨isTimer, deadline, ?_, waiting⟩, sameLoop⟩
  intro d still
  by_cases same : d = c
  · rw [same, detached_client] at still
    cases still
  · have unchanged : (w.detached c).clients d = w.clients d := by
      simp [World.detached, World.setClient, same]
    rw [unchanged] at still ⊢
    exact isActive d still

/-- The request of a client ends, whether its timer still runs or not. -/
theorem Clocks.ends
    {w next : World}
    {c r : Nat}
    (clocks : Clocks w (some r))
    (ready :
      (w.requests r).client = none →
      (w.detached c).Resumes r (w.clients c).loop)
    (ends : Ends w c r next) :
    Clocks next none := by
  obtain ⟨active, middle, released, tunes, releases, rfl⟩ := ends
  have gone := (clocks.detach active (by simp)).tunes tunes
  have loop : (middle.clients c).loop = (w.clients c).loop := by
    rw [tunes.loop, detached_client]
  refine Clocks.ending (gone.releases ?_ ?_ releases)
  · rw [tunes.nextClient]
    exact clocks.known c r active
  · rintro s ⟨rfl⟩ unlinked
    rw [loop]
    rw [tunes.link] at unlinked
    exact (ready unlinked).even tunes.even

/-! ## Following a redirect -/

/-- The listener is gone, and everything else about the timer is as it was. -/
theorem Clocks.leaving
    {w : World}
    {c r : Nat}
    (clocks : Clocks w none)
    (active : (w.clients c).request = some r) :
    Clocks (w.leaving c r) (some r) ∧
      (w.leaving c r).Resumes r (w.clients c).loop := by
  have gone := clocks.detach active (by simp)
  have others :
      ∀ s, s ≠ r → (w.leaving c r).requests s = w.requests s := by
    intro s different
    simp [World.leaving, World.setRequest, World.detached, World.setClient,
      different]
  have self :
      (w.leaving c r).requests r = (w.requests r).cleanupAfterRedirect := by
    simp [World.leaving, World.setRequest]
  refine ⟨?_, ?_⟩
  · refine
      { home := gone.home, free := gone.free, known := gone.known
        held := ?_, lasts := ?_, timed := ?_ }
    · intro s isAdmitted notLoose
      have held := gone.held s isAdmitted notLoose
      unfold Holding at held ⊢
      rw [others s (by simpa using notLoose)]
      exact held
    · intro s time timeout isAdmitted positive
      have lasts := gone.lasts s time timeout isAdmitted positive
      by_cases same : s = r
      · subst same
        rw [self]
        exact lasts
      · rw [others s same]
        exact lasts
    · intro s time timeout isAdmitted positive notLoose
      obtain ⟨timer, ⟨isTimer, rest⟩, listened⟩ :=
        gone.timed s time timeout isAdmitted positive notLoose
      refine ⟨timer, ⟨?_, rest⟩, listened⟩
      rw [others s (by simpa using notLoose)]
      exact isTimer
  · intro time timeout isAdmitted positive
    obtain ⟨timer, ⟨isTimer, deadline, rest⟩, sameLoop⟩ :=
      clocks.resumes_detached active time timeout isAdmitted positive
    have wasTimer : (w.requests r).timer = some timer := isTimer
    refine ⟨{ timer with listened := false }, ⟨?_, deadline, rest⟩, sameLoop⟩
    rw [self]
    simp [Request.cleanupAfterRedirect, wasTimer]

theorem newClient_clients (w : World) (loop : Nat) (pool : Option Nat) (d : Nat) :
    (w.newClient loop pool).clients d =
      if d = w.nextClient then { loop := loop, pool := pool }
      else w.clients d := by
  by_cases same : d = w.nextClient <;> simp [World.newClient, setClient, same]

/-- A new client on the loop of its pool. -/
theorem Clocks.newClient
    {w : World}
    {loop : Nat}
    {pool : Option Nat}
    {loose : Option Nat}
    (clocks : Clocks w loose)
    (home : ∀ p, pool = some p → loop = (w.pools p).loop) :
    Clocks (w.newClient loop pool) loose := by
  have others :
      ∀ d, d < w.nextClient →
        (w.newClient loop pool).clients d = w.clients d := by
    intro d below
    rw [newClient_clients, if_neg (Nat.ne_of_lt below)]
  have was :
      ∀ d s,
        ((w.newClient loop pool).clients d).request = some s →
        (w.clients d).request = some s := by
    intro d s active
    rw [newClient_clients] at active
    split at active
    · cases active
    · exact active
  refine
    { home := ?_, free := ?_, known := ?_, held := ?_, lasts := clocks.lasts
      timed := ?_ }
  · intro d p inPool
    rw [newClient_clients] at inPool ⊢
    split at inPool
    · rename_i isNew
      rw [if_pos isNew]
      exact home p inPool
    · rename_i isOld
      rw [if_neg isOld]
      exact clocks.home d p inPool
  · intro p key d isFree
    obtain ⟨known, sameLoop⟩ := clocks.free p key d isFree
    rw [others d known]
    exact ⟨Nat.lt_succ_of_lt known, sameLoop⟩
  · exact fun d s active =>
      Nat.lt_succ_of_lt (clocks.known d s (was d s active))
  · intro s isAdmitted notLoose
    rcases clocks.held s isAdmitted notLoose with ⟨d, link, active⟩ | waits
    · refine Or.inl ⟨d, link, ?_⟩
      rw [others d (clocks.known d s active)]
      exact active
    · exact Or.inr waits
  · intro s time timeout isAdmitted positive notLoose
    obtain ⟨timer, ⟨isTimer, deadline, active, waiting⟩, listened⟩ :=
      clocks.timed s time timeout isAdmitted positive notLoose
    refine ⟨timer, ⟨isTimer, deadline, ?_, waiting⟩, listened⟩
    intro d still
    have before := was d s still
    rw [others d (clocks.known d s before)]
    exact active d before

theorem Ticks.newClient
    {w : World}
    {r expires : Nat}
    {timer : Timer}
    (ticks : w.Ticks r expires timer)
    (loop : Nat)
    (pool : Option Nat) :
    (w.newClient loop pool).Ticks r expires timer := by
  refine ticks.mono ticks.1 ?_ fun p key waiting => ⟨waiting, rfl⟩
  intro d active
  rw [newClient_clients] at active ⊢
  split at active
  · cases active
  · rename_i isOld
    rw [if_neg isOld]
    exact ⟨active, rfl⟩

/-- A client that a pool has found for a request, on the loop of the pool. -/
structure Finds (w : World) (p c : Nat) (placed : World) : Prop where
  known : c < placed.nextClient
  loop : (placed.clients c).loop = (w.pools p).loop
  requests : placed.requests = w.requests
  trace : placed.trace = w.trace
  now : placed.now = w.now
  ticks :
    ∀ r expires timer,
      w.Ticks r expires timer → placed.Ticks r expires timer
  active :
    ∀ r d,
      (placed.clients d).request = some r → (w.clients d).request = some r
  waits : ∀ q key r, placed.Waits q key r → w.Waits q key r

/-- A pool finds a client on its loop. -/
theorem Clocks.places
    {w placed : World}
    {p c : Nat}
    {key : NetLoc}
    {loose : Option Nat}
    (clocks : Clocks w loose)
    (places : Places w p key c placed) :
    Clocks placed loose ∧ Finds w p c placed := by
  cases places with
  | @creates entry found =>
      have created :
          Clocks (w.newClient (w.pools p).loop (some p)) loose := by
        refine clocks.newClient ?_
        rintro q ⟨rfl⟩
        rfl
      have old :
          (∀ d ∈ entry.free, w.Free p key d) ∧
            ∀ place ∈ entry.queue, w.Waits p key place.req := by
        rcases found with ⟨_, rfl⟩ | ⟨present, _⟩
        · simp
        · exact ⟨fun d isFree => ⟨entry, present, isFree⟩,
            fun place isPlace =>
              ⟨entry, present, List.mem_map_of_mem isPlace⟩⟩
      have even :
          Even (w.newClient (w.pools p).loop (some p))
            ((w.newClient (w.pools p).loop (some p)).setEntry p key
              (some
                { entry with busy := entry.busy.insert w.nextClient })) :=
        Even.setEntry old.2
      have isNew :=
        newClient_clients w (w.pools p).loop (some p) w.nextClient
      rw [if_pos rfl] at isNew
      refine ⟨created.setEntry old.2 fun d isFree => Or.inl (old.1 d isFree), ?_⟩
      refine
        { known := Nat.lt_succ_self _, loop := ?_, requests := rfl
          trace := rfl, now := rfl
          ticks := fun _ _ _ ticks => (ticks.newClient _ _).even even
          active := ?_, waits := fun q other r => even.waits q other r }
      · change ((w.newClient _ _).clients w.nextClient).loop = _
        rw [isNew]
      · intro r d active
        change ((w.newClient _ _).clients d).request = some r at active
        rw [newClient_clients] at active
        split at active
        · cases active
        · exact active
  | @reuses entry _ present isFree =>
      have wasFree : w.Free p key c := ⟨entry, present, isFree⟩
      obtain ⟨known, loop⟩ := clocks.free p key c wasFree
      have queue : ∀ place ∈ entry.queue, w.Waits p key place.req :=
        fun place isPlace =>
          ⟨entry, present, List.mem_map_of_mem isPlace⟩
      have even :
          Even w
            (w.setEntry p key
              (some
                { entry with
                  free := entry.free.erase c
                  busy := entry.busy.insert c })) :=
        Even.setEntry queue
      refine ⟨clocks.setEntry queue ?_, ?_⟩
      · exact fun d inFree =>
          Or.inl ⟨entry, present, List.mem_of_mem_erase inFree⟩
      · exact
          { known := known, loop := loop, requests := rfl, trace := rfl
            now := rfl, ticks := fun _ _ _ ticks => ticks.even even
            active := fun _ _ => id
            waits := fun q other r => even.waits q other r }

theorem enqueue_clients
    (w : World)
    (p r : Nat)
    (key : NetLoc)
    (entry : NetLocList)
    (pool : Nat)
    (other : NetLoc) :
    ((w.enqueue p r key entry).pools pool).clients other =
      if pool = p ∧ other = key then
        some
          { entry with
            queue := entry.queue ++ [{ ticket := entry.nextTicket, req := r }]
            generation := entry.generation + 1
            nextTicket := entry.nextTicket + 1 }
      else
        (w.pools pool).clients other :=
  setEntry_clients w p key _ pool other

/-- A request joins a queue, on the loop of the pool. -/
theorem Clocks.enqueue
    {w : World}
    {p r : Nat}
    {key : NetLoc}
    {entry : NetLocList}
    {loose : Option Nat}
    (clocks : Clocks w loose)
    (present : (w.pools p).clients key = some entry)
    (only : ∀ s, s ≠ r → some s ≠ loose)
    (owner : (w.requests r).pool = some p)
    (holder :
      (w.requests r).client = none ∨ w.Holding r)
    (resumes : w.Resumes r (w.pools p).loop) :
    Clocks (w.enqueue p r key entry) none := by
  have others :
      ∀ s, s ≠ r → (w.enqueue p r key entry).requests s = w.requests s := by
    intro s different
    simp [World.enqueue, World.emit, World.setRequest, World.setEntry,
      different]
  have self :
      (w.enqueue p r key entry).requests r =
        (w.requests r).ensureTimerActive (w.pools p).loop w.now := by
    simp [World.enqueue, World.emit, World.setRequest, World.setEntry]
  have admits :
      ∀ s,
        admitted s (w.enqueue p r key entry).trace = admitted s w.trace :=
    fun s => ongoing_append _ s w.trace [.queued p r]
      (by simp [keepsSubmissions])
  have waits :
      ∀ q other s,
        (w.enqueue p r key entry).Waits q other s →
        w.Waits q other s ∨ q = p ∧ s = r := by
    rintro q other s ⟨list, member, isIn⟩
    rw [enqueue_clients] at member
    split at member
    · rename_i same
      obtain ⟨rfl, rfl⟩ := same
      cases member
      simp only [List.map_append, List.map_cons, List.map_nil,
        List.mem_append, List.mem_singleton] at isIn
      exact isIn.imp (fun was => ⟨entry, present, was⟩) fun isNew =>
        ⟨rfl, isNew⟩
    · exact Or.inl ⟨list, member, isIn⟩
  have loops :
      ∀ q, ((w.enqueue p r key entry).pools q).loop = (w.pools q).loop := by
    intro q
    by_cases same : q = p <;>
      simp [World.enqueue, World.emit, World.setRequest, World.setEntry, same]
  refine
    { home := ?_, free := ?_, known := clocks.known, held := ?_, lasts := ?_
      timed := ?_ }
  · intro c q inPool
    rw [loops]
    exact clocks.home c q inPool
  · rintro q other c ⟨list, member, isIn⟩
    rw [loops]
    refine clocks.free q other c ?_
    rw [enqueue_clients] at member
    split at member
    · rename_i same
      obtain ⟨rfl, rfl⟩ := same
      cases member
      exact ⟨entry, present, isIn⟩
    · exact ⟨list, member, isIn⟩
  · intro s isAdmitted _
    rw [admits] at isAdmitted
    by_cases same : s = r
    · subst same
      rcases holder with unlinked | held
      · right
        rw [self, ensureTimerActive_eq]
        exact ⟨unlinked, p, owner⟩
      · unfold Holding at held ⊢
        rw [self, ensureTimerActive_eq]
        exact held
    · have held := clocks.held s isAdmitted (only s same)
      unfold Holding at held ⊢
      rw [others s same]
      exact held
  · intro s time timeout isAdmitted positive
    rw [admits] at isAdmitted
    have lasts := clocks.lasts s time timeout isAdmitted positive
    by_cases same : s = r
    · subst same
      rw [self, ensureTimerActive_eq]
      exact lasts
    · rw [others s same]
      exact lasts
  · intro s time timeout isAdmitted positive _
    rw [admits] at isAdmitted
    by_cases same : s = r
    · subst same
      obtain ⟨timer, ⟨isTimer, deadline, active, waiting⟩, sameLoop⟩ :=
        resumes time timeout isAdmitted positive
      have lasts := clocks.lasts s time timeout isAdmitted positive
      refine ⟨{ timer with listened := true },
        ⟨?_, deadline, active, ?_⟩, rfl⟩
      · rw [self]
        exact ensureTimerActive_ticking _ _ lasts isTimer deadline
      · intro q other isWaiting
        rw [loops]
        rcases waits q other s isWaiting with was | ⟨rfl, _⟩
        · exact waiting q other was
        · exact sameLoop
    · obtain ⟨timer, ticks, listened⟩ :=
        clocks.timed s time timeout isAdmitted positive (only s same)
      refine ⟨timer, ticks.mono ?_ (fun d active => ⟨active, rfl⟩) ?_, listened⟩
      · rw [others s same]
        exact ticks.1
      · intro q other isWaiting
        refine ⟨?_, loops q⟩
        exact (waits q other s isWaiting).resolve_right fun isNew =>
          same isNew.2

/-- A redirected request goes on through the pool. -/
theorem Clocks.pooled
    {w next : World}
    {p r : Nat}
    (clocks : Clocks w (some r))
    (owner : (w.requests r).pool = some p)
    (holder : (w.requests r).client = none ∨ w.Holding r)
    (resumes : w.Resumes r (w.pools p).loop)
    (pooled : Pooled w p r next) :
    Clocks next none := by
  have only : ∀ s, s ≠ r → some s ≠ some r := by simp
  cases pooled with
  | @starts c placed _ places started =>
      obtain ⟨placedClocks, finds⟩ := clocks.places places
      refine placedClocks.started started finds.known ?_
        fun s different _ => only s different
      intro time timeout isAdmitted positive
      rw [finds.trace] at isAdmitted
      obtain ⟨timer, ticks, sameLoop⟩ :=
        resumes time timeout isAdmitted positive
      exact ⟨timer, finds.ticks r _ timer ticks, sameLoop.trans finds.loop.symm⟩
  | queues present _ _ =>
      exact clocks.enqueue present only owner holder resumes

theorem PutsBack.home
    {w next : World}
    {p c : Nat}
    (putsBack : PutsBack w p c next) :
    (next.clients c).loop = (w.clients c).loop ∧
      (next.clients c).pool = (w.clients c).pool := by
  cases putsBack with
  | starts _ _ started =>
      exact ⟨started.loop c, started.pool c⟩
  | frees _ _ _ =>
      exact ⟨rfl, rfl⟩

/-- A request that nobody has stays free, or the client starts it. -/
theorem PutsBack.holder
    {w next : World}
    {p c r : Nat}
    (putsBack : PutsBack w p c next)
    (unlinked : (w.requests r).client = none) :
    (next.requests r).client = none ∨ next.Holding r := by
  cases putsBack with
  | @starts entry place rest _ _ _ started =>
      by_cases same : r = place.req
      · subst same
        exact Or.inr (Or.inl ⟨c, started.link, started.active⟩)
      · left
        rw [started.requests r same]
        exact unlinked
  | frees _ _ _ =>
      exact Or.inl unlinked

/-- `req->_pool = this;` -/
theorem Clocks.owned
    {w : World}
    {loose : Option Nat}
    (clocks : Clocks w loose)
    (r p : Nat) :
    Clocks (w.setRequest r { w.requests r with pool := some p }) loose ∧
      ∀ s loop,
        w.Resumes s loop →
        (w.setRequest r { w.requests r with pool := some p }).Resumes s
          loop := by
  generalize shape :
    w.setRequest r { w.requests r with pool := some p } = own
  have same :
      ∀ s,
        (own.requests s).client = (w.requests s).client ∧
          (own.requests s).timer = (w.requests s).timer ∧
          (own.requests s).timeout = (w.requests s).timeout ∧
          ∀ q,
            (w.requests s).pool = some q →
            ∃ q, (own.requests s).pool = some q := by
    intro s
    subst shape
    by_cases isOwned : s = r
    · subst isOwned
      simp [World.setRequest]
    · have unchanged :
          (w.setRequest r { w.requests r with pool := some p }).requests s =
            w.requests s := by
        simp [World.setRequest, isOwned]
      rw [unchanged]
      exact ⟨rfl, rfl, rfl, fun q owner => ⟨q, owner⟩⟩
  have clients : own.clients = w.clients := by
    subst shape
    rfl
  have pools : own.pools = w.pools := by
    subst shape
    rfl
  have nextClient : own.nextClient = w.nextClient := by
    subst shape
    rfl
  have trace : own.trace = w.trace := by
    subst shape
    rfl
  have ticks :
      ∀ s expires timer,
        w.Ticks s expires timer → own.Ticks s expires timer := by
    intro s expires timer ticks
    refine ticks.mono ((same s).2.1.trans ticks.1) ?_ ?_
    · intro c active
      rw [clients] at active ⊢
      exact ⟨active, rfl⟩
    · intro q key waiting
      simp only [Waits, pools] at waiting ⊢
      exact ⟨waiting, trivial⟩
  refine ⟨?_, ?_⟩
  · refine
      { home := ?_, free := ?_, known := ?_, held := ?_, lasts := ?_
        timed := ?_ }
    · rw [clients, pools]
      exact clocks.home
    · simp only [Free, clients, pools, nextClient]
      exact clocks.free
    · rw [clients, nextClient]
      exact clocks.known
    · intro s isAdmitted notLoose
      rw [trace] at isAdmitted
      unfold Holding
      rw [clients, (same s).1]
      refine (clocks.held s isAdmitted notLoose).imp id ?_
      rintro ⟨unlinked, q, owner⟩
      exact ⟨unlinked, (same s).2.2.2 q owner⟩
    · intro s time timeout isAdmitted positive
      rw [trace] at isAdmitted
      rw [(same s).2.2.1]
      exact clocks.lasts s time timeout isAdmitted positive
    · intro s time timeout isAdmitted positive notLoose
      rw [trace] at isAdmitted
      obtain ⟨timer, isTicking, listened⟩ :=
        clocks.timed s time timeout isAdmitted positive notLoose
      exact ⟨timer, ticks s _ timer isTicking, listened⟩
  · intro s loop resumes time timeout isAdmitted positive
    rw [trace] at isAdmitted
    obtain ⟨timer, isTicking, sameLoop⟩ :=
      resumes time timeout isAdmitted positive
    exact ⟨timer, ticks s _ timer isTicking, sameLoop⟩

theorem Clocks.follows
    {w next : World}
    {c r : Nat}
    (clocks : Clocks w none)
    (follows : Follows w c r next) :
    Clocks next none := by
  cases follows with
  | same active tunes started =>
      obtain ⟨left, resumes⟩ := clocks.leaving active
      have middleResumes := resumes.even tunes.even
      have loop := tunes.loop c
      have leftLoop : ((w.leaving c r).clients c).loop = (w.clients c).loop := by
        change ((w.detached c).clients c).loop = _
        rw [detached_client]
      refine (left.tunes tunes).started started ?_ ?_ (by simp)
      · rw [tunes.nextClient]
        exact clocks.known c r active
      · rw [loop, leftLoop]
        exact middleResumes
  | @pooled p middle released _ active inPool tunes putsBack pooled =>
      obtain ⟨left, resumes⟩ := clocks.leaving active
      have middleClocks := left.tunes tunes
      have leftClient := detached_client w c
      have loop : (middle.clients c).loop = (w.clients c).loop := by
        rw [tunes.loop]
        change ((w.detached c).clients c).loop = _
        rw [leftClient]
      have pool : (middle.clients c).pool = some p := by
        rw [tunes.pool]
        change ((w.detached c).clients c).pool = _
        rw [leftClient]
        exact inPool
      have known : c < middle.nextClient := by
        rw [tunes.nextClient]
        exact clocks.known c r active
      obtain ⟨releasedClocks, releasedResumes⟩ :=
        middleClocks.putsBack known pool
          (by
            rintro s ⟨rfl⟩ _
            rw [loop]
            exact resumes.even tunes.even) putsBack
      obtain ⟨sameLoop, samePool⟩ := putsBack.home
      have unlinked : (middle.requests r).client = none := by
        rw [tunes.link]
        simp [World.leaving, World.setRequest, Request.cleanupAfterRedirect]
      have holder := putsBack.holder unlinked
      have weak := Tunes.weak released c true
      have weakClocks := releasedClocks.tunes weak
      obtain ⟨owned, ownedResumes⟩ := weakClocks.owned r p
      have home := releasedClocks.home c p (samePool.trans pool)
      have link :
          (((released.weak c true).setRequest r
            { released.requests r with pool := some p }).requests r).client =
            (released.requests r).client := by
        simp [World.setRequest]
      refine owned.pooled ?_ ?_ ?_ pooled
      · simp [World.setRequest]
      · rcases holder with isFree | ⟨d, linked, isActive⟩ | ⟨isFree, _⟩
        · exact Or.inl (link.trans isFree)
        · refine Or.inr (Or.inl ⟨d, link.trans linked, ?_⟩)
          exact (weak.request d).trans isActive
        · exact Or.inl (link.trans isFree)
      · refine ownedResumes r _ ?_
        have resumed :=
          (releasedResumes r (by
            rw [loop]
            exact resumes.even tunes.even)).even weak.even
        rw [← sameLoop, home] at resumed
        exact resumed

/-- Whatever a step does to the requests in flight. -/
theorem Clocks.act
    {w next : World}
    (clocks : Clocks w none)
    (act : Act w next) :
    Clocks next none := by
  cases act with
  | tunes tunes =>
      exact clocks.tunes tunes
  | ends tunes ends =>
      have tuned := clocks.tunes tunes
      exact (tuned.weaken _).ends
        (fun _ => tuned.resumes_detached ends.1) ends
  | follows tunes follows =>
      exact (clocks.tunes tunes).follows follows
  | dequeues tunes _ =>
      exact ((clocks.tunes tunes).weaken _).ending

/-! ## Submissions -/

/-- The timer of a request that nobody has can be armed on the loop. -/
structure Submittable (w : World) (r loop : Nat) : Prop where
  ended : admitted r w.trace = none
  unlinked : (w.requests r).client = none
  loose : w.Loose r
  idle :
    ∀ timer ∈ (w.requests r).timer,
      timer.deadline = none ∧ timer.loop = loop

/-- The timer of a request that is being submitted has been armed. -/
def Armed (w : World) (r loop : Nat) : Prop :=
  (w.requests r).timeout ≠ 0 →
    w.Timed r (w.now loop + (w.requests r).timeout)

theorem Started.armed
    {w next : World}
    {c r : Nat}
    (started : Started w c r next)
    (submittable : Submittable w r (w.clients c).loop) :
    next.Armed r (w.clients c).loop := by
  have timeout : (next.requests r).timeout = (w.requests r).timeout := by
    rw [started.request]
  intro lasts
  rw [timeout] at lasts ⊢
  refine
    ⟨{ loop := (w.clients c).loop
       deadline := some (next.now (w.clients c).loop + (w.requests r).timeout)
       listened := true }, ⟨?_, rfl, ?_, ?_⟩, rfl⟩
  · rw [started.timer, ensureTimerActive_idle lasts submittable.idle,
      started.now]
  · intro d active
    by_cases same : d = c
    · rw [same, started.loop]
    · rw [started.clients d same] at active
      exact (submittable.loose.1 ⟨d, active⟩).elim
  · intro p key waiting
    refine (submittable.loose.2 ⟨p, key, ?_⟩).elim
    simpa [Waits, started.pools] using waiting

theorem enqueue_armed
    {w : World}
    {p r : Nat}
    {key : NetLoc}
    (entry : NetLocList)
    (submittable : Submittable w r (w.pools p).loop)
    (present : (w.pools p).clients key = some entry) :
    (w.enqueue p r key entry).Armed r (w.pools p).loop := by
  have self :
      (w.enqueue p r key entry).requests r =
        (w.requests r).ensureTimerActive (w.pools p).loop w.now := by
    simp [World.enqueue, World.emit, World.setRequest, World.setEntry]
  have timeout :
      ((w.enqueue p r key entry).requests r).timeout =
        (w.requests r).timeout := by
    rw [self, ensureTimerActive_eq]
  intro lasts
  rw [timeout] at lasts ⊢
  refine
    ⟨{ loop := (w.pools p).loop
       deadline := some (w.now (w.pools p).loop + (w.requests r).timeout)
       listened := true }, ⟨?_, rfl, ?_, ?_⟩, rfl⟩
  · rw [self]
    exact ensureTimerActive_idle lasts submittable.idle
  · exact fun d active => (submittable.loose.1 ⟨d, active⟩).elim
  · rintro q other ⟨list, member, isIn⟩
    by_cases same : q = p
    · subst same
      simp [World.enqueue, World.emit, World.setRequest, World.setEntry]
    · rw [enqueue_clients, if_neg fun both => same both.1] at member
      exact (submittable.loose.2 ⟨q, other, list, member, isIn⟩).elim

/-- A submission has begun and is recorded. -/
theorem Clocks.accepted
    {w : World}
    {r loop : Nat}
    (clocks : Clocks w none)
    (pool : Option Nat)
    (holding : w.Holding r)
    (armed : w.Armed r loop) :
    Clocks
      (w.emit
        (.accepted r pool loop (w.now loop) (w.requests r).timeout)) none := by
  have admits :
      ∀ s,
        admitted s
            (w.emit
              (.accepted r pool loop (w.now loop)
                (w.requests r).timeout)).trace =
          if r = s then some (w.now loop, (w.requests r).timeout)
          else admitted s w.trace :=
    fun s => ongoing_accepted _ s r pool loop _ _ w.trace
  refine
    { home := clocks.home, free := clocks.free, known := clocks.known
      held := ?_, lasts := ?_, timed := ?_ }
  · intro s isAdmitted notLoose
    rw [admits] at isAdmitted
    split at isAdmitted
    · rename_i same
      subst same
      exact holding
    · exact clocks.held s isAdmitted notLoose
  · intro s time timeout isAdmitted positive
    rw [admits] at isAdmitted
    split at isAdmitted
    · rename_i same
      subst same
      cases isAdmitted
      exact Nat.ne_of_gt positive
    · exact clocks.lasts s time timeout isAdmitted positive
  · intro s time timeout isAdmitted positive notLoose
    rw [admits] at isAdmitted
    split at isAdmitted
    · rename_i same
      subst same
      cases isAdmitted
      exact armed (Nat.ne_of_gt positive)
    · exact clocks.timed s time timeout isAdmitted positive notLoose

/-- A request that is not in flight has no timer to go on with. -/
theorem Submittable.resumes
    {w : World}
    {r loop : Nat}
    (submittable : Submittable w r loop)
    (other : Nat) :
    w.Resumes r other := by
  intro time timeout isAdmitted
  rw [submittable.ended] at isAdmitted
  cases isAdmitted

/-- What a submission leaves when it has been accepted. -/
structure Submitted (w : World) (r loop : Nat) : Prop where
  clocks : Clocks w none
  holding : w.Holding r
  armed : w.Armed r loop

theorem clientRequest_clocks
    {w : World}
    {c r : Nat}
    (clocks : Clocks w none)
    (known : c < w.nextClient)
    (submittable : Submittable w r (w.clients c).loop) :
    (w.clientRequest c r).Post
      (fun next => Submitted next r (w.clients c).loop)
      (Refused w c r) (fun _ => True) := by
  refine (clientRequest_post w c r).imp ?_ (fun _ => id) (fun _ _ => trivial)
  intro next started
  exact ⟨clocks.started started known (submittable.resumes _) (by simp),
    Or.inl ⟨c, started.link, started.active⟩, started.armed submittable⟩

/-- The request still has nobody when `Pool::request` has set its `_pool`. -/
theorem Submittable.owned
    {w : World}
    {r loop : Nat}
    (submittable : Submittable w r loop)
    (p : Nat) :
    Submittable (w.setRequest r { w.requests r with pool := some p }) r loop where
  ended := submittable.ended
  unlinked := by simpa [World.setRequest] using submittable.unlinked
  loose := submittable.loose
  idle := by simpa [World.setRequest] using submittable.idle

theorem Submittable.finds
    {w placed : World}
    {p c r : Nat}
    (submittable : Submittable w r (w.pools p).loop)
    (finds : Finds w p c placed) :
    Submittable placed r (placed.clients c).loop where
  ended := by
    rw [finds.trace]
    exact submittable.ended
  unlinked := by
    rw [finds.requests]
    exact submittable.unlinked
  loose := by
    refine ⟨?_, ?_⟩
    · rintro ⟨d, active⟩
      exact submittable.loose.1 ⟨d, finds.active r d active⟩
    · rintro ⟨q, key, waiting⟩
      exact submittable.loose.2 ⟨q, key, finds.waits q key r waiting⟩
  idle := by
    rw [finds.requests, finds.loop]
    exact submittable.idle

theorem Clocks.submits
    {w next : World}
    {p r : Nat}
    (clocks : Clocks w none)
    (owner : (w.requests r).pool = some p)
    (submittable : Submittable w r (w.pools p).loop)
    (pooled : Pooled w p r next) :
    Submitted next r (w.pools p).loop := by
  cases pooled with
  | @starts c placed _ places started =>
      obtain ⟨placedClocks, finds⟩ := clocks.places places
      have placedSubmittable := submittable.finds finds
      have armed := started.armed placedSubmittable
      rw [finds.loop] at armed
      exact ⟨placedClocks.started started finds.known
          (placedSubmittable.resumes _) (by simp),
        Or.inl ⟨c, started.link, started.active⟩, armed⟩
  | @queues entry present _ _ =>
      refine ⟨clocks.enqueue present (by simp) owner
          (Or.inl submittable.unlinked) (submittable.resumes _), ?_,
        enqueue_armed entry submittable present⟩
      right
      have self :
          (w.enqueue p r (w.netloc r) entry).requests r =
            (w.requests r).ensureTimerActive (w.pools p).loop w.now := by
        simp [World.enqueue, World.emit, World.setRequest, World.setEntry]
      rw [self, ensureTimerActive_eq]
      exact ⟨submittable.unlinked, p, owner⟩

/-- An exception of `Client::request` for a request that has no timer running. -/
theorem Clocks.refused
    {w next : World}
    {c r : Nat}
    (clocks : Clocks w none)
    (refused : Refused w c r next)
    (harmless :
      admitted r w.trace = none ∨ (w.requests r).client.isSome) :
    Clocks next none := by
  obtain ⟨tcp, client⟩ := refused.client
  obtain ⟨exception, trace⟩ := refused.trace
  have fields :
      ∀ d,
        (next.clients d).loop = (w.clients d).loop ∧
          (next.clients d).pool = (w.clients d).pool ∧
          (next.clients d).request = (w.clients d).request := by
    intro d
    by_cases same : d = c
    · rw [same, client]
      exact ⟨rfl, rfl, rfl⟩
    · rw [refused.clients d same]
      exact ⟨rfl, rfl, rfl⟩
  have admits : ∀ s, admitted s next.trace = admitted s w.trace := by
    intro s
    rw [trace]
    exact ongoing_append _ s w.trace _ (by simp [keepsSubmissions])
  have unchanged :
      ∀ s,
        (admitted s w.trace).isSome → next.requests s = w.requests s := by
    intro s isAdmitted
    by_cases same : s = r
    · subst same
      rcases refused.request with same | ⟨_, unlinked, _⟩
      · exact same
      · rcases harmless with ended | linked
        · rw [ended] at isAdmitted
          cases isAdmitted
        · rw [unlinked] at linked
          cases linked
    · exact refused.requests s same
  refine
    { home := ?_, free := ?_, known := ?_, held := ?_, lasts := ?_
      timed := ?_ }
  · intro d p inPool
    rw [(fields d).2.1] at inPool
    rw [(fields d).1, refused.pools]
    exact clocks.home d p inPool
  · intro p key d isFree
    rw [(fields d).1, refused.pools, refused.nextClient]
    exact clocks.free p key d (by simpa [Free, refused.pools] using isFree)
  · intro d s active
    rw [(fields d).2.2] at active
    rw [refused.nextClient]
    exact clocks.known d s active
  · intro s isAdmitted notLoose
    rw [admits] at isAdmitted
    unfold Holding
    simp only [unchanged s isAdmitted, (fields _).2.2]
    exact clocks.held s isAdmitted notLoose
  · intro s time timeout isAdmitted positive
    rw [admits] at isAdmitted
    rw [unchanged s (by rw [isAdmitted]; rfl)]
    exact clocks.lasts s time timeout isAdmitted positive
  · intro s time timeout isAdmitted positive notLoose
    rw [admits] at isAdmitted
    obtain ⟨timer, ticks, listened⟩ :=
      clocks.timed s time timeout isAdmitted positive notLoose
    refine ⟨timer, ticks.mono ?_ ?_ ?_, listened⟩
    · rw [unchanged s (by rw [isAdmitted]; rfl)]
      exact ticks.1
    · intro d active
      rw [(fields d).2.2] at active
      exact ⟨active, (fields d).1⟩
    · intro p key waiting
      simp only [Waits, refused.pools] at waiting ⊢
      exact ⟨waiting, trivial⟩

/-- `Pool::request`, accepted or not. -/
theorem poolRequest_clocks
    {w : World}
    {p r : Nat}
    (clocks : Clocks w none)
    (submittable :
      Submittable w r (w.pools p).loop ∨ (w.requests r).client.isSome) :
    (w.poolRequest p r).Post
      (fun next =>
        Submittable w r (w.pools p).loop → Submitted next r (w.pools p).loop)
      (fun next => Clocks next none) (fun _ => True) := by
  obtain ⟨owned, _⟩ := clocks.owned r p
  refine (poolRequest_post w p r).imp ?_ ?_ (fun _ _ => trivial)
  · rintro next ⟨_, pooled⟩ accepted
    have submits :=
      owned.submits (by simp [World.setRequest]) (accepted.owned p) pooled
    exact submits
  · rintro next (⟨exception, rfl⟩ | ⟨c, placed, places, refused⟩)
    · exact clocks.tunes (Tunes.emit w rfl)
    · obtain ⟨placedClocks, finds⟩ := owned.places places
      refine placedClocks.refused refused ?_
      rw [finds.trace, finds.requests]
      refine submittable.imp (fun accepted => accepted.ended) fun linked => ?_
      simpa [World.setRequest] using linked

/-! ## Timers that fire -/

/-- The timer of a request whose deadline does not matter any more is changed. -/
theorem Clocks.retimed
    {w : World}
    (clocks : Clocks w none)
    (r : Nat)
    (timer : Option Timer) :
    Clocks (w.setRequest r { w.requests r with timer := timer }) (some r) ∧
      ((admitted r w.trace).isSome →
        (w.setRequest r { w.requests r with timer := timer }).Holding r) := by
  have others :
      ∀ s, s ≠ r →
        (w.setRequest r { w.requests r with timer := timer }).requests s =
          w.requests s := by
    intro s different
    simp [World.setRequest, different]
  have self :
      (w.setRequest r { w.requests r with timer := timer }).requests r =
        { w.requests r with timer := timer } := by
    simp [World.setRequest]
  have held :
      ∀ s,
        (admitted s w.trace).isSome →
        (w.setRequest r { w.requests r with timer := timer }).Holding s := by
    intro s isAdmitted
    have was := clocks.held s isAdmitted (by simp)
    unfold Holding at was ⊢
    by_cases same : s = r
    · subst same
      rw [self]
      exact was
    · rw [others s same]
      exact was
  refine ⟨?_, held r⟩
  refine
    { home := clocks.home, free := clocks.free, known := clocks.known
      held := fun s isAdmitted _ => held s isAdmitted, lasts := ?_
      timed := ?_ }
  · intro s time timeout isAdmitted positive
    have lasts := clocks.lasts s time timeout isAdmitted positive
    by_cases same : s = r
    · subst same
      rw [self]
      exact lasts
    · rw [others s same]
      exact lasts
  · intro s time timeout isAdmitted positive notLoose
    obtain ⟨running, ticks, listened⟩ :=
      clocks.timed s time timeout isAdmitted positive (by simp)
    refine ⟨running, ticks.mono ?_ (fun _ active => ⟨active, rfl⟩)
      fun _ _ waiting => ⟨waiting, rfl⟩, listened⟩
    rw [others s (by simpa using notLoose)]
    exact ticks.1

theorem fireTimer_clocks
    {w : World}
    (clocks : Clocks w none)
    (r : Nat)
    (timer : Timer)
    (listens :
      ∀ time timeout,
        admitted r w.trace = some (time, timeout) →
        0 < timeout →
        timer.listened = true) :
    Leads (w.fireTimer r timer) (fun next => Clocks next none) := by
  obtain ⟨fired, held⟩ :=
    clocks.retimed r (some { timer with deadline := none })
  unfold fireTimer
  dsimp only
  generalize shape :
    w.setRequest r
      { w.requests r with timer := some { timer with deadline := none } } =
      next at fired held
  have trace : next.trace = w.trace := by
    subst shape
    rfl
  -- without a deadline in the past nothing is missing
  have still :
      ((admitted r w.trace).isSome → timer.listened = false) →
      Clocks next none := by
    intro unheard
    refine
      { home := fired.home, free := fired.free, known := fired.known
        held := ?_, lasts := fired.lasts, timed := ?_ }
    · intro s isAdmitted _
      by_cases same : s = r
      · subst same
        rw [trace] at isAdmitted
        exact held isAdmitted
      · exact fired.held s isAdmitted (by simpa using same)
    · intro s time timeout isAdmitted positive _
      refine fired.timed s time timeout isAdmitted positive ?_
      rintro ⟨rfl⟩
      rw [trace] at isAdmitted
      have heard := listens time timeout isAdmitted positive
      rw [unheard (by rw [isAdmitted]; rfl)] at heard
      cases heard
  split
  · rename_i heard
    cases isAdmitted : admitted r w.trace with
    | none =>
        have clocks := still (by simp [isAdmitted])
        exact (onTimer_act next r).leads.imp fun _ act => clocks.act act
    | some submission =>
        have holds := held (by rw [isAdmitted]; rfl)
        unfold onTimer
        dsimp only
        rcases holds with ⟨c, link, active⟩ | ⟨unlinked, p, owner⟩
        · rw [link]
          unfold timedOut
          refine (cancel_ends _ active).leads.imp ?_
          rintro after ⟨middle, tunes, ends⟩
          refine (fired.tunes tunes).ends ?_ ends
          intro gone
          rw [tunes.link, link] at gone
          cases gone
        · rw [unlinked, owner]
          refine (cancelRequest_ends next p r _).leads.imp ?_
          rintro after ⟨rfl, _⟩
          exact fired.ending
  · rename_i unheard
    exact Leads.next (still fun _ => by simpa using unheard)

/-! ## Runs -/

/-- The application submits a request that nobody has, or it fails to. -/
def Submits (config : Config) (input : Input) (r loop : Nat) : Prop :=
  Submittable config.state r loop ∨
    (config.state.requests r).client.isSome ∧
      ∃ next,
        accept input config.stack.head? config.state = some (.raise next)

/--
A request is submitted only while nobody has it, with a timer of the same loop if
it has one; in flight its timeout is not taken away, and no exception of the code
itself loses it.
-/
def KeepsDeadlines (config : Config) (label : Label) : Prop :=
  let w := config.state
  match label with
  | .tick =>
      ∀ frame rest next,
        config.stack = frame :: rest →
        code frame w = .raise next →
        frame = .rethrow
  | .input (.edit r fields) =>
      ∀ time timeout,
        admitted r w.trace = some (time, timeout) →
        0 < timeout →
        fields.timeout ≠ 0
  | .input (.clientRequest c r) =>
      Submits config (.clientRequest c r) r (w.clients c).loop
  | .input (.poolRequest p r) =>
      Submits config (.poolRequest p r) r (w.pools p).loop
  | .input (.agentRequest a r contextUri topLevel) =>
      Submits config (.agentRequest a r contextUri topLevel) r
        (w.pools (w.agents a).pool).loop
  | .input (.sendChunk _ _) => True
  | .input (.sendFinalChunk _ _) => True
  | .input input =>
      ∀ next, accept input config.stack.head? w ≠ some (.raise next)
  | _ => True

theorem parseShift_even
    (w : World)
    (c buffer context : Nat)
    (result : Parsed) :
    Even w (w.parseShift c buffer context result) := by
  have same :
      ∀ d,
        ((w.parseShift c buffer context result).clients d).loop =
            (w.clients d).loop ∧
          ((w.parseShift c buffer context result).clients d).pool =
            (w.clients d).pool ∧
          ((w.parseShift c buffer context result).clients d).request =
            (w.clients d).request := by
    intro d
    by_cases isSame : d = c
    · subst isSame
      simp [World.parseShift, World.emit, World.setClient]
    · simp [World.parseShift, World.emit, World.setClient, isSame]
  exact
    ⟨Nat.le_refl _, fun d => (same d).1, fun d => (same d).2.1,
      fun d => (same d).2.2, fun _ => rfl, fun _ _ _ => id, fun _ => rfl,
      fun _ => rfl, fun _ => rfl, fun _ => rfl,
      fun s => ongoing_append _ s w.trace _ (by simp [keepsSubmissions])⟩

theorem code_clocks
    {w : World}
    (clocks : Clocks w none)
    (frame : Frame) :
    Leads (code frame w) (fun next => Clocks next none) := by
  cases plain : isPlainFrame frame with
  | true =>
      exact (code_act w frame plain).leads.imp fun _ act => clocks.act act
  | false =>
      cases frame with
      | onRead c buffer buf =>
          cases buf with
          | nil =>
              exact Leads.next clocks
          | cons result rest =>
              refine (onReadLoop_act w c buffer result rest).leads.imp ?_
              rintro next (⟨_, tunes⟩ | ⟨context, _, act⟩)
              · exact clocks.tunes tunes
              · have parsed :=
                  clocks.even (parseShift_even w c buffer context result)
                    fun _ _ _ isFree => Or.inl isFree
                exact parsed.act act
      | cancelReturn p key ticket generation =>
          simp only [code, cancelReturn]
          split
          · exact Leads.fault
          · rename_i entry present
            split
            · refine Leads.next (clocks.setEntry ?_ ?_)
              · intro place isPlace
                exact ⟨entry, present, List.mem_map_of_mem
                  (List.mem_of_mem_eraseIdx isPlace)⟩
              · exact fun d isFree => Or.inl ⟨entry, present, isFree⟩
            · exact Leads.fault
      | _ =>
          cases plain

theorem Submitted.recorded
    {straight : Straight}
    {r loop : Nat}
    (pool : Option Nat)
    (post :
      straight.Post (fun next => Submitted next r loop)
        (fun _ => True) (fun _ => True)) :
    Leads (straight.before (acceptedOn pool loop r))
      (fun next => Clocks next none) :=
  leads_before post fun _ submitted =>
    Leads.next (submitted.clocks.accepted pool submitted.holding submitted.armed)

theorem Submittable.tunes
    {w next : World}
    {r loop : Nat}
    (submittable : Submittable w r loop)
    (tunes : Tunes w next) :
    Submittable next r loop where
  ended := by
    rw [tunes.even.admitted]
    exact submittable.ended
  unlinked := (tunes.link r).trans submittable.unlinked
  loose := by
    refine ⟨?_, ?_⟩
    · rintro ⟨d, active⟩
      rw [tunes.request] at active
      exact submittable.loose.1 ⟨d, active⟩
    · rintro ⟨q, key, waiting⟩
      exact submittable.loose.2 ⟨q, key, tunes.even.waits q key r waiting⟩
  idle := by
    rw [tunes.timer]
    exact submittable.idle

theorem Clocks.edit
    {w : World}
    {r : Nat}
    {fields : RequestFields}
    (clocks : Clocks w none)
    (lasts :
      ∀ time timeout,
        admitted r w.trace = some (time, timeout) →
        0 < timeout →
        fields.timeout ≠ 0) :
    Clocks (w.setRequest r (edited (w.requests r) fields)) none := by
  have others :
      ∀ s, s ≠ r →
        (w.setRequest r (edited (w.requests r) fields)).requests s =
          w.requests s := by
    intro s different
    simp [World.setRequest, different]
  have self :
      (w.setRequest r (edited (w.requests r) fields)).requests r =
        edited (w.requests r) fields := by
    simp [World.setRequest]
  refine
    { home := clocks.home, free := clocks.free, known := clocks.known
      held := ?_, lasts := ?_, timed := ?_ }
  · intro s isAdmitted notLoose
    have held := clocks.held s isAdmitted notLoose
    unfold Holding at held ⊢
    by_cases same : s = r
    · subst same
      rw [self]
      exact held
    · rw [others s same]
      exact held
  · intro s time timeout isAdmitted positive
    by_cases same : s = r
    · subst same
      rw [self]
      exact lasts time timeout isAdmitted positive
    · rw [others s same]
      exact clocks.lasts s time timeout isAdmitted positive
  · intro s time timeout isAdmitted positive notLoose
    obtain ⟨timer, ticks, listened⟩ :=
      clocks.timed s time timeout isAdmitted positive notLoose
    refine ⟨timer, ticks.mono ?_ (fun _ active => ⟨active, rfl⟩)
      fun _ _ waiting => ⟨waiting, rfl⟩, listened⟩
    by_cases same : s = r
    · subst same
      rw [self]
      exact ticks.1
    · rw [others s same]
      exact ticks.1

theorem checkInactivity_clocks
    {w : World}
    (clocks : Clocks w none)
    (p : Nat) :
    Clocks (w.checkInactivity p) none := by
  refine clocks.even
    { nextClient := Nat.le_refl _, loop := fun _ => rfl, pool := fun _ => rfl
      request := fun _ => rfl, loops := ?_, waits := ?_, link := fun _ => rfl
      owner := fun _ => rfl, timer := fun _ => rfl, timeout := fun _ => rfl
      admitted := fun _ => rfl } ?_
  · intro q
    by_cases same : q = p
    · subst same
      simp [World.checkInactivity]
    · simp [World.checkInactivity, same]
  · rintro q key r ⟨entry, member, waiting⟩
    obtain ⟨old, oldMember, _, rfl, _⟩ := checkInactivity_from member
    exact ⟨old, oldMember, waiting⟩
  · rintro q key c ⟨entry, member, isFree⟩
    obtain ⟨old, oldMember, _, rfl, fewer, _⟩ := checkInactivity_from member
    exact Or.inl ⟨old, oldMember, fewer.subset isFree⟩

theorem accept_clocks
    {w : World}
    {input : Input}
    {stack : List Frame}
    {next : World}
    {frames : List Frame}
    (clocks : Clocks w none)
    (permitted : KeepsDeadlines ⟨w, stack, none⟩ (.input input))
    (accepted : accept input stack.head? w = some (.next next frames)) :
    Clocks next none := by
  cases plain : isPlainInput input with
  | true =>
      exact clocks.act ((accept_act plain accepted).leads next frames rfl)
  | false =>
      cases input with
      | edit r fields =>
          simp only [accept] at accepted
          split at accepted <;> cases accepted
          exact clocks.edit permitted
      | newClient loop =>
          cases accepted
          exact clocks.newClient (by simp)
      | clientRequest c r =>
          have isAccepted := accepted
          simp only [accept] at accepted
          split at accepted
          · rename_i known
            rcases permitted with submittable | ⟨_, after, throws⟩
            · refine Submitted.recorded none
                ((clientRequest_clocks clocks known submittable).imp
                  (fun _ => id) (fun _ _ => trivial) (fun _ => id))
                next frames (Option.some.inj accepted)
            · rw [isAccepted] at throws
              cases throws
          · cases accepted
      | poolRequest p r =>
          have isAccepted := accepted
          simp only [accept, Option.some.injEq] at accepted
          rcases permitted with submittable | ⟨_, after, throws⟩
          · exact Submitted.recorded (some p)
              ((poolRequest_clocks clocks (Or.inl submittable)).imp
                (fun _ submitted => submitted submittable)
                (fun _ _ => trivial) (fun _ => id))
              next frames accepted
          · rw [isAccepted] at throws
            cases throws
      | agentRequest a r contextUri topLevel =>
          have isAccepted := accepted
          simp only [accept, Option.some.injEq] at accepted
          rcases permitted with submittable | ⟨_, after, throws⟩
          · rcases agentRequest_tunes w a r contextUri topLevel with
              fault | ⟨middle, tunes, isPool⟩
            · rw [fault] at accepted
              cases accepted
            · rw [isPool] at accepted
              have tuned := submittable.tunes tunes
              rw [← tunes.pools] at accepted tuned
              exact Submitted.recorded (some (w.agents a).pool)
                ((poolRequest_clocks (clocks.tunes tunes) (Or.inl tuned)).imp
                  (fun _ submitted => submitted tuned)
                  (fun _ _ => trivial) (fun _ => id))
                next frames accepted
          · rw [isAccepted] at throws
            cases throws
      | maxConnections p value =>
          cases accepted
          have same :
              ∀ q,
                ((Function.update w.pools p
                    { w.pools p with maxConnections := value }) q).loop =
                    (w.pools q).loop ∧
                  ((Function.update w.pools p
                    { w.pools p with maxConnections := value }) q).clients =
                    (w.pools q).clients := by
            intro q
            by_cases isSame : q = p
            · subst isSame
              simp
            · simp [isSame]
          refine clocks.even
            { nextClient := Nat.le_refl _, loop := fun _ => rfl
              pool := fun _ => rfl, request := fun _ => rfl
              loops := fun q => (same q).1
              waits := fun q key r waiting => ?_
              link := fun _ => rfl, owner := fun _ => rfl
              timer := fun _ => rfl, timeout := fun _ => rfl
              admitted := fun _ => rfl } fun q key c isFree => Or.inl ?_
          · simp only [Waits, (same q).2] at waiting
            exact waiting
          · simp only [Free, (same q).2] at isFree
            exact isFree
      | advance loop milliseconds =>
          generalize stack.head? = top at accepted
          cases top <;> simp only [accept, reduceCtorEq] at accepted
          cases accepted
          exact clocks.even
            ⟨Nat.le_refl _, fun _ => rfl, fun _ => rfl, fun _ => rfl,
              fun _ => rfl, fun _ _ _ => id, fun _ => rfl, fun _ => rfl,
              fun _ => rfl, fun _ => rfl, fun _ => rfl⟩
            fun _ _ _ isFree => Or.inl isFree
      | onRead c buf =>
          generalize stack.head? = top at accepted
          cases top <;> simp only [accept, reduceCtorEq] at accepted
          split at accepted <;> cases accepted
          exact clocks.even
            ⟨Nat.le_refl _, fun _ => rfl, fun _ => rfl, fun _ => rfl,
              fun _ => rfl, fun _ _ _ => id, fun _ => rfl, fun _ => rfl,
              fun _ => rfl, fun _ => rfl,
              fun s => ongoing_append _ s w.trace _
                (by simp [keepsSubmissions])⟩
            fun _ _ _ isFree => Or.inl isFree
      | onTimer r =>
          generalize stack.head? = top at accepted
          cases top <;> simp only [accept, reduceCtorEq] at accepted
          split at accepted
          · cases accepted
          · rename_i timer isTimer
            split at accepted
            · cases accepted
            · rename_i deadline expires
              split at accepted
              · refine fireTimer_clocks clocks r timer ?_ next frames
                  (Option.some.inj accepted)
                intro time timeout isAdmitted positive
                obtain ⟨running, ticks, listened⟩ :=
                  clocks.timed r time timeout isAdmitted positive (by simp)
                have same := isTimer.symm.trans ticks.1
                rw [Option.some.inj same]
                exact listened
              · cases accepted
      | checkInactivity p =>
          generalize stack.head? = top at accepted
          cases top <;> simp only [accept, reduceCtorEq] at accepted
          split at accepted <;> cases accepted
          exact checkInactivity_clocks clocks p
      | _ =>
          cases plain

theorem Submits.harmless
    {config : Config}
    {input : Input}
    {r loop : Nat}
    (submits : Submits config input r loop) :
    Submittable config.state r loop ∨
      (config.state.requests r).client.isSome :=
  submits.imp id fun fails => fails.1

/-- A submission that was refused is not recorded. -/
theorem acceptedOn_raise
    {straight : Straight}
    {pool : Option Nat}
    {loop r : Nat}
    {next : World}
    {raise : World → Prop}
    (post : straight.Post (fun _ => True) raise (fun _ => True))
    (executed : straight.before (acceptedOn pool loop r) = .raise next) :
    raise next := by
  rcases Straight.before_raise executed with rfl | ⟨middle, _, impossible⟩
  · exact post
  · cases impossible

theorem accept_raise_clocks
    {w : World}
    {input : Input}
    {stack : List Frame}
    {next : World}
    (clocks : Clocks w none)
    (permitted : KeepsDeadlines ⟨w, stack, none⟩ (.input input))
    (accepted : accept input stack.head? w = some (.raise next)) :
    Clocks next none := by
  cases input with
  | edit r fields =>
      simp only [accept] at accepted
      split at accepted <;> cases accepted
  | clientRequest c r =>
      simp only [accept] at accepted
      split at accepted
      · have harmless := permitted.harmless
        have refused :=
          acceptedOn_raise
            ((clientRequest_post w c r).imp (fun _ _ => trivial) (fun _ => id)
              (fun _ _ => trivial)) (Option.some.inj accepted)
        exact clocks.refused refused
          (harmless.imp (fun submittable => submittable.ended) id)
      · cases accepted
  | poolRequest p r =>
      simp only [accept, Option.some.injEq] at accepted
      exact acceptedOn_raise
        ((poolRequest_clocks clocks permitted.harmless).imp
          (fun _ _ => trivial) (fun _ => id) (fun _ => id)) accepted
  | agentRequest a r contextUri topLevel =>
      simp only [accept, Option.some.injEq] at accepted
      have harmless := permitted.harmless
      rcases agentRequest_tunes w a r contextUri topLevel with
        fault | ⟨middle, tunes, isPool⟩
      · rw [fault] at accepted
        cases accepted
      · rw [isPool] at accepted
        refine acceptedOn_raise
          ((poolRequest_clocks (clocks.tunes tunes) ?_).imp
            (fun _ _ => trivial) (fun _ => id) (fun _ => id)) accepted
        refine harmless.imp (fun submittable => ?_) fun linked => ?_
        · rw [tunes.pools]
          exact submittable.tunes tunes
        · rw [tunes.link]
          exact linked
  | sendChunk r data =>
      exact clocks.tunes
        ((sendChunk_tunes w r data).raises next (Option.some.inj accepted))
  | sendFinalChunk r data =>
      exact clocks.tunes
        ((sendFinalChunk_tunes w r data).raises next (Option.some.inj accepted))
  | _ =>
      exact (permitted next accepted).elim

theorem preserves_clocks :
    machine.Preserves KeepsDeadlines (fun w _ => Clocks w none) where
  tick := by
    intro frame rest w next frames _ _ clocks executed
    exact code_clocks clocks frame next frames executed
  tickRaise := by
    intro frame rest w next _ permitted clocks executed
    have executed : code frame w = .raise next := executed
    have rethrows := permitted frame rest next rfl executed
    subst rethrows
    cases executed
    exact clocks
  ret := fun _ _ _ _ clocks => clocks
  throw := fun _ _ _ _ _ _ clocks => clocks
  input := by
    intro input stack w next frames _ permitted clocks accepted
    exact accept_clocks clocks permitted accepted
  inputRaise := by
    intro input stack w next _ permitted clocks accepted
    exact accept_raise_clocks clocks permitted accepted

theorem clocks_of_fresh {w : World} (fresh : Fresh w) : Clocks w none where
  home c p inPool := by
    rw [fresh.clients] at inPool
    cases inPool
  free p key c isFree := by
    obtain ⟨entry, member, _⟩ := isFree
    rw [fresh.pools] at member
    cases member
  known c r active := by
    rw [fresh.clients] at active
    cases active
  held r isAdmitted := by
    rw [fresh.trace] at isAdmitted
    cases isAdmitted
  lasts r time timeout isAdmitted := by
    rw [fresh.trace] at isAdmitted
    cases isAdmitted
  timed r time timeout isAdmitted := by
    rw [fresh.trace] at isAdmitted
    cases isAdmitted

/--
In every run in which a request is submitted only on the loop of its timer while
nobody has it, every submission with a timeout has its one deadline.
-/
theorem oneDeadline_of_keepsDeadlines
    (w : World)
    (labels : List Label)
    (final : Config)
    (fresh : Fresh w)
    (keeps : machine.Guarded KeepsDeadlines (start w) labels)
    (ran : run? w labels = some final) :
    OneDeadline final := by
  intro _ r time timeout isAdmitted positive
  have clocks := preserves_clocks.run (clocks_of_fresh fresh) keeps ran
  exact clocks.timed r time timeout isAdmitted positive (by simp)

/-- A request is redirected to another host, through the pool, after a second. -/
def redirectedLater : List Label :=
  [.input (.edit 0 { uri := some { scheme := "http", host := "here" } }),
    .input (.poolRequest 0 0),
    .input (.onConnect 0 none),
    .input (.advance 0 1000),
    .input (.onRead 0
      [.done
        { code := 302
          location := some { scheme := "http", host := "there" } }]),
    .tick, .tick, .ret, .tick, .tick]

theorem oneDeadline_redirectedLater :
    ∃ final,
      run? (initial {}) redirectedLater = some final ∧
        final.stack = [] ∧
        final.state.Timed 0 20000 := by
  have ran : run? (initial {}) redirectedLater = some _ := rfl
  refine ⟨_, ran, rfl, ?_⟩
  refine oneDeadline_of_keepsDeadlines _ _ _ (fresh_initial {}) ?_ ran rfl 0 0
    20000 rfl (by decide)
  have noWaiting :
      ∀ w : World, (∀ p key, (w.pools p).clients key = none) →
        ∀ r, ¬ w.Waiting r := by
    rintro w absent r ⟨p, key, entry, member, _⟩
    simp [absent] at member
  refine .cons ?_ rfl (.cons (Or.inl ⟨rfl, rfl, ⟨?_, ?_⟩, ?_⟩) rfl
    (.cons ?_ rfl (.cons ?_ rfl (.cons ?_ rfl (.cons ?_ rfl (.cons ?_ rfl
      (.cons trivial rfl (.cons ?_ rfl (.cons ?_ rfl trivial)))))))))
  · rintro time timeout ⟨⟩
  · rintro ⟨c, ⟨⟩⟩
  · exact noWaiting _ (fun _ _ => rfl) 0
  · rintro timer ⟨⟩
  · rintro next ⟨⟩
  · rintro next ⟨⟩
  · rintro next ⟨⟩
  · rintro frame rest next ⟨⟩ ⟨⟩
  · rintro frame rest next ⟨⟩ ⟨⟩
  · rintro frame rest next ⟨⟩ ⟨⟩
  · rintro frame rest next ⟨⟩ ⟨⟩

/-- A request that has been answered on one loop is submitted on another one. -/
def submittedElsewhere : List Label :=
  [.input (.edit 0 { uri := some { scheme := "http", host := "here" } }),
    .input (.newClient 0),
    .input (.newClient 1),
    .input (.clientRequest 0 0),
    .input (.onConnect 0 none),
    .input (.onRead 0 [.done { code := 200 }]),
    .tick, .tick, .ret, .tick, .ret, .tick,
    .input (.clientRequest 1 0)]

/-- The timer stays on the loop of the first client. -/
theorem submittedElsewhere_not_oneDeadline :
    ∃ final,
      run? (initial {}) submittedElsewhere = some final ∧
        ((final.state.requests 0).timer.map (·.loop)) = some 0 ∧
        (final.state.clients 1).request = some 0 ∧
        (final.state.clients 1).loop = 1 ∧
        ¬ OneDeadline final := by
  refine ⟨_, rfl, rfl, rfl, rfl, ?_⟩
  intro deadline
  obtain ⟨timer, ⟨isTimer, _, active, _⟩, _⟩ :=
    deadline rfl 0 0 20000 rfl (by decide)
  cases isTimer
  have sameLoop := active 1 rfl
  cases sameLoop

end UniEventHttp.ClientSide.World
