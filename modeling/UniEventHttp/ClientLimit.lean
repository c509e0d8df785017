import UniEventHttp.ClientIsolation

namespace UniEventHttp.ClientSide.World

/-!
# The limit of redirects

A request counts its redirects in a `uint16_t`, through all clients that it comes
to, until it is finished.  The counter is what has been followed of the
submission, as long as it does not wrap.
-/

/-! ## What is to be shown -/

/-- The redirects of the submission of a request that have been followed. -/
def followed (r : Nat) (trace : List Event) : Nat :=
  trace.foldl
    (fun count event =>
      match event with
      | .fired (.redirectEvent _ s _ _) => if s = r then count + 1 else count
      | .finished s => if s = r then 0 else count
      | .accepted s _ _ _ _ => if s = r then 0 else count
      | _ => count)
    0

/-- The error of a redirect that exceeds the limit. -/
def limitError (limit : Nat) : ErrorCode :=
  if limit = 0 then .http .unexpectedRedirect else .http .redirectionLimit

/-- The response that a step completes, with its client. -/
def answer? (config : Config) : Label → Option (Nat × Response)
  | .tick =>
      match config.stack with
      | .onRead c _ buf :: _ => config.state.readAnswer c buf
      | _ => none
  | .input input => config.state.inputAnswer input
  | _ => none

/-- A client receives a redirect for a request that follows redirects. -/
structure Redirecting
    (config : Config)
    (label : Label)
    (c r : Nat)
    (response : Response) : Prop where
  answer : answer? config label = some (c, response)
  active : (config.state.clients c).request = some r
  follows : (config.state.requests r).followRedirect = true
  isRedirect : isRedirect response.code = true

/-- In a step, the limit of redirects is kept. -/
structure LimitedStep (before : Config) (label : Label) (after : Config) : Prop where
  /-- `redirect_event` is fired as often as the limit says at most. -/
  fires :
    ∃ events,
      after.state.trace = before.state.trace ++ events ∧
        ∀ c r response context,
          .fired (.redirectEvent c r response context) ∈ events →
          followed r after.state.trace ≤
            (after.state.requests r).redirectionLimit
  /-- A redirect below the limit is announced. -/
  permits :
    ∀ c r response,
      Redirecting before label c r response →
      followed r before.state.trace <
          (before.state.requests r).redirectionLimit →
      response.location.isSome = true →
      ∃ context below,
        after.stack = .fire (.redirectEvent c r response context) :: below
  /-- The next redirect ends the request. -/
  refuses :
    ∀ c r response,
      Redirecting before label c r response →
      (before.state.requests r).redirectionLimit ≤
          followed r before.state.trace →
      (∃ answer below,
          after.stack =
            endFrames r answer
                (some
                  (limitError (before.state.requests r).redirectionLimit)) ++
              below) ∧
        ∃ events,
          after.state.trace = before.state.trace ++ events ∧ ends events = [r]

/-- In a run that no assertion ends, the limits of redirects are kept. -/
def LimitedRun (w : World) (labels : List Label) : Prop :=
  ∀ first label rest before after,
    labels = first ++ label :: rest →
    run? w first = some before →
    machine.step? before label = some after →
    after.fault = none →
    LimitedStep before label after

/-! ## The condition -/

/--
Fewer than 65535 redirects have been followed when another one comes; if it is not
to be followed, the first request that waits for the client can be started.
-/
def Countable (w : World) (c r : Nat) (response : Response) : Prop :=
  followed r w.trace < 2 ^ 16 - 1 ∧
    ((w.requests r).redirectionLimit ≤ followed r w.trace ∨
        response.location = none →
      w.NextStarts c)

/-- The condition on a response that is to be analyzed. -/
def CountableAnswer (w : World) (answer : Option (Nat × Response)) : Prop :=
  ∀ received ∈ answer,
    ∀ r ∈ (w.clients received.1).request,
      (w.requests r).followRedirect = true →
      isRedirect received.2.code = true →
      Countable w received.1 r received.2

/--
Every redirect that comes can be counted; and a request is submitted when no
redirect of it is counted, that is, after its submission has ended.
-/
def KeepsCount (config : Config) (label : Label) : Prop :=
  CountableAnswer config.state (answer? config label) ∧
    match label with
    | .input input =>
        ∀ r ∈ offeredRequest input, followed r config.state.trace = 0
    | _ => True

instance (w : World) (c r : Nat) (response : Response) :
    Decidable (Countable w c r response) :=
  inferInstanceAs (Decidable (_ ∧ (_ → _)))

instance (w : World) (answer : Option (Nat × Response)) :
    Decidable (CountableAnswer w answer) := by
  unfold CountableAnswer
  infer_instance

instance (config : Config) (label : Label) :
    Decidable (KeepsCount config label) :=
  match label with
  | .input input =>
      inferInstanceAs
        (Decidable
          (CountableAnswer config.state (answer? config (.input input)) ∧
            ∀ r ∈ offeredRequest input, followed r config.state.trace = 0))
  | .tick =>
      inferInstanceAs
        (Decidable (CountableAnswer config.state (answer? config .tick) ∧ True))
  | .ret =>
      inferInstanceAs
        (Decidable (CountableAnswer config.state (answer? config .ret) ∧ True))
  | .throw =>
      inferInstanceAs
        (Decidable (CountableAnswer config.state (answer? config .throw) ∧ True))

/-! ## Observations -/

theorem followed_append
    (r : Nat)
    (trace events : List Event)
    (kept : ∀ event ∈ events, isTurning event = false) :
    followed r (trace ++ events) = followed r trace := by
  induction events generalizing trace with
  | nil =>
      simp
  | cons event rest inductionHypothesis =>
      have regrouped : trace ++ event :: rest = (trace ++ [event]) ++ rest := by
        simp
      rw [regrouped, inductionHypothesis (trace ++ [event])
        fun other member => kept other (List.mem_cons_of_mem _ member)]
      have silent := kept event List.mem_cons_self
      unfold followed
      rw [List.foldl_append]
      cases event with
      | fired callback =>
          cases callback <;> first | rfl | cases silent
      | _ =>
          first | rfl | cases silent

theorem followed_finished (r s : Nat) (trace : List Event) :
    followed r (trace ++ [.finished s]) =
      if s = r then 0 else followed r trace := by
  unfold followed
  rw [List.foldl_append]
  rfl

theorem followed_accepted
    (r s : Nat)
    (pool : Option Nat)
    (loop time timeout : Nat)
    (trace : List Event) :
    followed r (trace ++ [.accepted s pool loop time timeout]) =
      if s = r then 0 else followed r trace := by
  unfold followed
  rw [List.foldl_append]
  rfl

theorem followed_fired
    (r c s : Nat)
    (response : Response)
    (context : RedirectContext)
    (trace : List Event) :
    followed r (trace ++ [.fired (.redirectEvent c s response context)]) =
      if s = r then followed r trace + 1 else followed r trace := by
  unfold followed
  rw [List.foldl_append]
  rfl

theorem Keeps.followed
    {w next : World}
    (keeps : Keeps w next)
    (r : Nat) :
    World.followed r next.trace = World.followed r w.trace := by
  obtain ⟨events, trace, kept⟩ := keeps.trace
  rw [trace, followed_append _ _ _ kept]

/-- No `redirect_event` is observed. -/
def Silent (w next : World) : Prop :=
  ∃ events,
    next.trace = w.trace ++ events ∧
      ∀ c r response context,
        .fired (.redirectEvent c r response context) ∉ events

section Silent

variable {w next third : World}

theorem Silent.trans
    (one : Silent w next)
    (two : Silent next third) :
    Silent w third := by
  obtain ⟨first, traceOne, noneOne⟩ := one
  obtain ⟨second, traceTwo, noneTwo⟩ := two
  refine ⟨first ++ second, by rw [traceTwo, traceOne, List.append_assoc], ?_⟩
  intro c r response context member
  exact (List.mem_append.mp member).elim (noneOne c r response context)
    (noneTwo c r response context)

theorem Keeps.silent (keeps : Keeps w next) : Silent w next := by
  obtain ⟨events, trace, kept⟩ := keeps.trace
  refine ⟨events, trace, fun c r response context member => ?_⟩
  cases kept _ member

theorem Finishes.silent
    {c r : Nat}
    (finishes : Finishes w c r next) :
    Silent w next := by
  obtain ⟨_, middle, keeps, rfl⟩ := finishes
  have before : Silent w middle := keeps.silent
  exact before.trans ⟨[.finished r], rfl, by simp⟩

theorem Move.silent
    {offered : Option Nat}
    (move : Move w offered next) :
    Silent w next := by
  cases move with
  | keeps keeps =>
      exact keeps.silent
  | cancels adjusts finishes =>
      exact adjusts.keeps.silent.trans finishes.silent
  | dequeues adjusts _ =>
      exact adjusts.keeps.silent.trans ⟨[.finished _], rfl, by simp⟩
  | accepts _ _ _ _ _ keeps =>
      exact keeps.silent.trans ⟨[.accepted _ _ _ _ _], rfl, by simp⟩

end Silent

/-! ## The counters -/

/-- The counters are the redirects that have been followed. -/
def Counts (w : World) : Prop :=
  ∀ r, (w.requests r).redirectionCounter = followed r w.trace

section Counts

variable {w next : World}

theorem Counts.keeps
    (counts : Counts w)
    (keeps : Keeps w next) :
    Counts next := by
  intro r
  rw [keeps.counter, keeps.followed]
  exact counts r

theorem Counts.ending
    {r : Nat}
    (counts : ∀ s, s ≠ r → (w.requests s).redirectionCounter = followed s w.trace) :
    Counts (w.ending r) := by
  intro s
  change _ = followed s (w.trace ++ [.finished r])
  rw [followed_finished]
  by_cases same : s = r
  · subst s
    simp [World.ending, World.emit, World.setRequest, Request.finished]
  · rw [if_neg fun isSame => same isSame.symm, ← counts s same]
    simp [World.ending, World.emit, World.setRequest, same]

/-- The request that ends need not have been counted right. -/
theorem Counts.finishes
    {c r : Nat}
    (counts : ∀ s, s ≠ r → (w.requests s).redirectionCounter = followed s w.trace)
    (finishes : Finishes w c r next) :
    Counts next := by
  obtain ⟨_, middle, keeps, rfl⟩ := finishes
  refine Counts.ending fun s other => ?_
  rw [keeps.counter, keeps.followed]
  exact counts s other

theorem Counts.loses
    {c r : Nat}
    (counts : Counts w)
    (loses : Loses w c r next) :
    Counts next := by
  have left : Counts (w.detached c) := counts
  exact left.keeps loses.keeps

theorem Counts.move
    {offered : Option Nat}
    (counts : Counts w)
    (zero : ∀ r ∈ offered, followed r w.trace = 0)
    (move : Move w offered next) :
    Counts next := by
  cases move with
  | keeps keeps =>
      exact counts.keeps keeps
  | @cancels middle _ c r adjusts finishes =>
      have before := counts.keeps adjusts.keeps
      exact Counts.finishes (w := middle.cancelling c) (fun s _ => before s)
        finishes
  | dequeues adjusts _ =>
      exact Counts.ending fun s _ => counts.keeps adjusts.keeps s
  | @accepts middle r pool loop time timeout isOffered keeps =>
      intro s
      change (middle.requests s).redirectionCounter =
        followed s (middle.trace ++ [.accepted r pool loop time timeout])
      rw [followed_accepted, counts.keeps keeps s]
      split
      · rename_i same
        subst s
        rw [keeps.followed]
        exact zero r isOffered
      · rfl

theorem Counts.leaving
    {c r : Nat}
    (counts : Counts w) :
    Counts (w.leaving c r) := by
  intro s
  change _ = followed s w.trace
  rw [← counts s]
  by_cases same : s = r
  · subst s
    simp [World.leaving, World.setRequest, Request.cleanupAfterRedirect]
  · simp [World.leaving, World.setRequest, World.detached, World.setClient, same]

theorem Counts.departs
    {c : Nat}
    (counts : Counts w)
    (departs : Departs w c next) :
    Counts next := by
  obtain ⟨r, middle, _, _, first, second⟩ := departs
  have settled : Counts (w.settled c) := counts
  exact (settled.keeps first).leaving.keeps second

end Counts

/-! ## The stack -/

/-- A redirect is about to be announced. -/
def isAnnouncement : Frame → Bool
  | .fire (.redirectEvent _ _ _ _) => true
  | _ => false

/-- The counters are right, or the one of the redirect is ahead that is on top. -/
inductive Tally (w : World) : List Frame → Prop where
  | counts {stack : List Frame} :
      Counts w →
      (∀ frame ∈ stack, isAnnouncement frame = false) →
      Tally w stack
  | ahead {c r : Nat} {response : Response} {context : RedirectContext}
      {rest : List Frame} :
      (∀ s,
        (w.requests s).redirectionCounter =
          if s = r then followed s w.trace + 1 else followed s w.trace) →
      (w.requests r).redirectionCounter ≤ (w.requests r).redirectionLimit →
      (∀ frame ∈ rest, isAnnouncement frame = false) →
      Tally w (.fire (.redirectEvent c r response context) :: rest)

section Tally

variable {w next : World} {stack : List Frame}

theorem isAnnouncement_of_unmarked
    {frame : Frame}
    (unmarked : isMarked frame = false) :
    isAnnouncement frame = false := by
  cases frame with
  | fire callback =>
      cases callback <;> first | rfl | cases unmarked
  | _ =>
      rfl

/-- Below the top, nothing is about to be announced. -/
theorem Tally.rest
    {frame : Frame}
    (tally : Tally w (frame :: stack)) :
    ∀ other ∈ stack, isAnnouncement other = false := by
  cases tally with
  | counts _ none =>
      exact fun other member => none other (List.mem_cons_of_mem _ member)
  | ahead _ _ none =>
      exact none

theorem Tally.ordinary
    {frame : Frame}
    (tally : Tally w (frame :: stack))
    (ordinary : isAnnouncement frame = false) :
    Counts w := by
  cases tally with
  | counts counts _ =>
      exact counts
  | ahead _ _ _ =>
      cases ordinary

theorem Tally.boundary
    (tally : Tally w stack)
    (boundary : machine.atBoundary stack = true) :
    Counts w ∧ ∀ frame ∈ stack, isAnnouncement frame = false := by
  cases tally with
  | counts counts none =>
      exact ⟨counts, none⟩
  | ahead _ _ _ =>
      cases boundary

/-- Frames are pushed that announce nothing. -/
theorem Counts.tally
    {frames : List Frame}
    (counts : Counts w)
    (pushed : ∀ frame ∈ frames, isAnnouncement frame = false)
    (none : ∀ frame ∈ stack, isAnnouncement frame = false) :
    Tally w (frames ++ stack) := by
  refine .counts counts fun frame member => ?_
  exact (List.mem_append.mp member).elim (pushed frame) (none frame)

theorem unwind_announces
    (none : ∀ frame ∈ stack, isAnnouncement frame = false) :
    ∀ frame ∈ machine.unwind stack, isAnnouncement frame = false := by
  induction stack with
  | nil =>
      simp [CallMachine.Machine.unwind]
  | cons top rest inductionHypothesis =>
      have below :=
        fun frame member => none frame (List.mem_cons_of_mem top member)
      cases top with
      | callback _ =>
          exact none
      | redirected c =>
          intro frame member
          change frame ∈ .redirectCatch c :: rest at member
          rcases List.mem_cons.mp member with rfl | inRest
          · rfl
          · exact below frame inRest
      | _ =>
          exact inductionHypothesis below

end Tally

/-! ## Steps -/

/-- What an ordinary step does to the counters and to what is announced. -/
structure Accounts (w : World) (step : Step) : Prop where
  next :
    ∀ next frames,
      step = .next next frames →
      Silent w next ∧ Counts next ∧
        ∀ frame ∈ frames, isAnnouncement frame = false
  raise : ∀ next, step = .raise next → Silent w next ∧ Counts next

section Accounts

variable {w middle : World}

theorem Stirs.accounts
    {offered : Option Nat}
    {asked : Nat → Prop}
    {step : Step}
    (stirs : Stirs w offered asked step)
    (counts : Counts w)
    (zero : ∀ r ∈ offered, followed r w.trace = 0) :
    Accounts w step := by
  constructor
  · intro next frames executed
    obtain ⟨move, unmarked⟩ := stirs.next next frames executed
    exact ⟨move.silent, counts.move zero move,
      fun frame member => isAnnouncement_of_unmarked (unmarked frame member)⟩
  · intro next executed
    rcases stirs.raise next executed with keeps | ⟨before, c, r, adjusts, _, loses⟩
    · exact ⟨keeps.silent, counts.keeps keeps⟩
    · have kept : Counts (before.cancelling c) := by
        have moved := counts.keeps adjusts.keeps
        exact moved
      have lost : Silent (before.cancelling c) next := by
        have released := loses.keeps.silent
        exact released
      exact ⟨adjusts.keeps.silent.trans lost, kept.loses loses⟩

theorem accounts_finishRequest
    (counts : Counts w)
    (c : Nat)
    (error : Option ErrorCode) :
    Accounts w (w.finishRequest c error) := by
  constructor
  · intro next frames executed
    obtain ⟨r, response, finishes, rfl⟩ := finishRequest_next executed
    exact ⟨finishes.silent, Counts.finishes (fun s _ => counts s) finishes,
      fun frame member =>
        isAnnouncement_of_unmarked (unmarked_endFrames r response _ frame member)⟩
  · intro next executed
    obtain ⟨r, loses⟩ := finishRequest_raise executed
    have lost : Silent w next := by
      have released := loses.keeps.silent
      exact released
    exact ⟨lost, counts.loses loses⟩

theorem Accounts.andFrames
    {step : Step}
    {rest : List Frame}
    (accounts : Accounts w step)
    (none : ∀ frame ∈ rest, isAnnouncement frame = false) :
    Accounts w (ClientSide.andFrames step rest) := by
  constructor
  · intro next frames executed
    obtain ⟨first, isNext, rfl⟩ := andFrames_next executed
    obtain ⟨silent, counts, ordinary⟩ := accounts.next next first isNext
    refine ⟨silent, counts, fun frame member => ?_⟩
    exact (List.mem_append.mp member).elim (ordinary frame) (none frame)
  · intro next executed
    exact accounts.raise next (andFrames_raise executed)

theorem Accounts.after
    {step : Step}
    (accounts : Accounts middle step)
    (silent : Silent w middle) :
    Accounts w step := by
  constructor
  · intro next frames executed
    obtain ⟨later, rest⟩ := accounts.next next frames executed
    exact ⟨silent.trans later, rest⟩
  · intro next executed
    obtain ⟨later, counts⟩ := accounts.raise next executed
    exact ⟨silent.trans later, counts⟩

theorem NextStarts.counting
    {c r : Nat}
    (starts : w.NextStarts c) :
    (w.counting r).NextStarts c := by
  refine NextStarts.congr (w := w) rfl rfl rfl rfl rfl ?_ ?_ starts <;>
    · intro s
      by_cases same : s = r
      · subst s
        simp [World.counting, World.setRequest, counted]
      · simp [World.counting, World.setRequest, same]

/-- The redirect is counted and not followed: its request ends. -/
theorem accounts_uncounted
    {c r : Nat}
    (counts : Counts w)
    (active : (w.clients c).request = some r)
    (starts : w.NextStarts c)
    (error : Option ErrorCode) :
    Accounts w ((w.counting r).cancel c error) := by
  have others :
      ∀ s, s ≠ r →
        (((w.counting r).cancelling c).requests s).redirectionCounter =
          followed s ((w.counting r).cancelling c).trace := by
    intro s other
    change ((w.setRequest r _).requests s).redirectionCounter = followed s w.trace
    rw [← counts s]
    simp [World.setRequest, other]
  have sameRequest :
      ∀ s, (((w.counting r).cancelling c).clients c).request = some s → s = r := by
    intro s isActive
    have has : (w.clients c).request = some s := by
      simpa [World.cancelling, World.setClient, counting, World.setRequest]
        using isActive
    rw [active] at has
    exact (Option.some.inj has).symm
  constructor
  · intro next frames executed
    rcases cancel_next executed with ⟨idle, _, _⟩ | ⟨s, response, finishes, rfl⟩
    · exact absurd (active.symm.trans idle) (by simp)
    · have same := sameRequest s finishes.1
      subst same
      have silent : Silent w next := by
        have finished := finishes.silent
        exact finished
      exact ⟨silent, Counts.finishes others finishes, fun frame member =>
        isAnnouncement_of_unmarked (unmarked_endFrames s response _ frame member)⟩
  · intro next executed
    obtain ⟨s, loses⟩ := cancel_raise executed
    exact (loses.refuses (starts.counting.setClient rfl rfl)).elim

end Accounts

/-! ## Redirects -/

/-- A redirect is announced below the limit, and ends the request otherwise. -/
structure Decides
    (w : World)
    (c r : Nat)
    (response : Response)
    (step : Step) : Prop where
  permits :
    followed r w.trace < (w.requests r).redirectionLimit →
    response.location.isSome = true →
    ∃ next context below,
      step = .next next (.fire (.redirectEvent c r response context) :: below)
  refuses :
    (w.requests r).redirectionLimit ≤ followed r w.trace →
    ∃ next answer below events,
      step =
          .next next
            (endFrames r answer
                (some (limitError (w.requests r).redirectionLimit)) ++ below) ∧
        next.trace = w.trace ++ events ∧ ends events = [r]

/-- What the analysis of a response does to the counters. -/
structure Analyzed (w : World) (step : Step) : Prop where
  next :
    ∀ next frames, step = .next next frames → Silent w next ∧ Tally next frames
  raise : ∀ next, step = .raise next → Silent w next ∧ Counts next

section Analyzed

variable {w : World} {c r : Nat} {response : Response} {rest : List Frame}

theorem Remains.ordinary (remains : Remains rest) :
    ∀ frame ∈ rest, isAnnouncement frame = false := by
  cases remains <;> simp [isAnnouncement]

theorem Accounts.analyzed
    {step : Step}
    (accounts : Accounts w step) :
    Analyzed w step := by
  constructor
  · intro next frames executed
    obtain ⟨silent, counts, ordinary⟩ := accounts.next next frames executed
    exact ⟨silent, .counts counts ordinary⟩
  · exact accounts.raise

/-- The counter of a redirect does not wrap. -/
theorem counted_eq
    (counts : Counts w)
    (few : followed r w.trace < 2 ^ 16 - 1) :
    (counted (w.requests r)).redirectionCounter = followed r w.trace + 1 := by
  unfold counted
  dsimp only
  rw [counts r]
  exact Nat.mod_eq_of_lt (by omega)

theorem Redirected.unique
    {other : Nat}
    {answer : Response}
    (one : Redirected w c r response)
    (two : Redirected w c other answer) :
    other = r ∧ answer = response := by
  have active := one.active
  have answered := one.answered
  rw [two.active] at active
  rw [two.answered] at answered
  exact ⟨Option.some.inj active, Option.some.inj answered⟩

theorem analyzeRequest_analyzed
    (counts : Counts w)
    (remains : Remains rest)
    (countable :
      ∀ r response, Redirected w c r response → Countable w c r response) :
    Analyzed w (andFrames (w.analyzeRequest c) rest) := by
  have analyses := analyzeRequest_analyses w c
  generalize w.analyzeRequest c = step at analyses ⊢
  cases analyses with
  | fails reason =>
      constructor
      · rintro next frames ⟨⟩
      · rintro next ⟨⟩
  | continues r _ _ =>
      constructor
      · rintro next frames ⟨⟩
        refine ⟨⟨[], by simp, by simp⟩, counts.tally ?_ remains.ordinary⟩
        simp [isAnnouncement]
      · rintro next ⟨⟩
  | @unexpected r response redirected unlimited =>
      have stirs : Stirs w none (fun _ => True) (w.cancel c _) :=
        .cancel (some (.http .unexpectedRedirect)) (Adjusts.refl w) trivial
      exact ((stirs.accounts counts (by simp)).andFrames
        remains.ordinary).analyzed
  | @limited r response redirected permitted exceeded =>
      obtain ⟨few, starts⟩ := countable r response redirected
      rw [counted_eq counts few] at exceeded
      have reached := Or.inl (b := response.location = none)
        (Nat.le_of_lt_succ exceeded)
      exact ((accounts_uncounted counts redirected.active (starts reached)
        _).andFrames remains.ordinary).analyzed
  | @unlocated r response redirected _ _ missing =>
      obtain ⟨few, starts⟩ := countable r response redirected
      exact ((accounts_uncounted counts redirected.active
        (starts (Or.inr missing)) _).andFrames remains.ordinary).analyzed
  | @redirects r response location after context redirects =>
      have redirected : Redirected w c r response :=
        ⟨redirects.active, redirects.answered, redirects.follows,
          redirects.isRedirect⟩
      have shape := redirects.shape
      have counted := counted_eq counts (countable r response redirected).1
      constructor
      · rintro next frames ⟨⟩
        refine ⟨⟨[], by rw [shape]; simp [World.setClient, World.setRequest],
          by simp⟩, ?_⟩
        have others :
            ∀ frame ∈ [Frame.redirected c] ++ rest,
              isAnnouncement frame = false := by
          intro frame member
          rcases List.mem_append.mp member with isFrame | inRest
          · rw [List.mem_singleton.mp isFrame]
            rfl
          · exact remains.ordinary frame inRest
        have requests :
            after.requests =
              (w.setRequest r
                ((World.counted (w.requests r)).redirectedTo
                  location)).requests := by
          rw [shape]
          rfl
        have trace : after.trace = w.trace := by
          rw [shape]
          rfl
        refine .ahead ?_ ?_ others
        · intro s
          rw [requests, trace]
          by_cases same : s = r
          · subst s
            rw [if_pos rfl, ← counted]
            simp [World.setRequest, Request.redirectedTo]
          · rw [if_neg same, ← counts s]
            simp [World.setRequest, same]
        · rw [requests]
          simpa [World.setRequest, Request.redirectedTo, World.counted]
            using redirects.within
      · rintro next ⟨⟩
  | finishes _ =>
      exact ((accounts_finishRequest counts c none).andFrames
        remains.ordinary).analyzed

/-- Cancelling with an error ends the request with this error. -/
theorem cancel_decides
    {middle : World}
    {error : ErrorCode}
    (trace : middle.trace = w.trace)
    (active : (middle.clients c).request = some r)
    (starts : middle.NextStarts c)
    (noFault : ∀ reason, andFrames (middle.cancel c (some error)) rest ≠ .fault reason) :
    ∃ next answer below events,
      andFrames (middle.cancel c (some error)) rest =
          .next next (endFrames r answer (some error) ++ below) ∧
        next.trace = w.trace ++ events ∧ ends events = [r] := by
  cases executed : middle.cancel c (some error) with
  | next next frames =>
      rcases cancel_next executed with ⟨idle, _, _⟩ | ⟨s, answer, finishes, rfl⟩
      · exact absurd (active.symm.trans idle) (by simp)
      · have has : (middle.clients c).request = some s := by
          simpa [World.cancelling, World.setClient] using finishes.1
        rw [active] at has
        cases has
        obtain ⟨events, after, isEnd⟩ := finishes.ends
        refine ⟨next, answer, rest, events, rfl, ?_, isEnd⟩
        rw [after, ← trace]
        rfl
  | raise next =>
      obtain ⟨s, loses⟩ := cancel_raise executed
      exact (loses.refuses (starts.setClient rfl rfl)).elim
  | fault reason =>
      exact (noFault reason (by rw [executed]; rfl)).elim

/-- The analysis of a redirect decides as the limit says. -/
theorem analyzeRequest_decides
    (counts : Counts w)
    (redirected : Redirected w c r response)
    (countable : Countable w c r response)
    (noFault : ∀ reason, andFrames (w.analyzeRequest c) rest ≠ .fault reason) :
    Decides w c r response (andFrames (w.analyzeRequest c) rest) := by
  obtain ⟨few, starts⟩ := countable
  have analyses := analyzeRequest_analyses w c
  generalize w.analyzeRequest c = step at analyses noFault ⊢
  cases analyses with
  | fails reason =>
      exact (noFault reason rfl).elim
  | continues s answered isContinue =>
      have same := answered.symm.trans redirected.answered
      cases same
      have impossible := redirected.isRedirect
      rw [isContinue] at impossible
      cases impossible
  | @unexpected s answer other unlimited =>
      obtain ⟨rfl, rfl⟩ := redirected.unique other
      refine ⟨fun below => absurd below (by omega), fun reached => ?_⟩
      rw [limitError, if_pos unlimited]
      exact cancel_decides rfl redirected.active (starts (Or.inl reached)) noFault
  | @limited s answer other permitted exceeded =>
      obtain ⟨rfl, rfl⟩ := redirected.unique other
      rw [counted_eq counts few] at exceeded
      refine ⟨fun below => absurd below (by omega), fun reached => ?_⟩
      rw [limitError, if_neg permitted]
      exact cancel_decides rfl redirected.active
        (starts (Or.inl reached)).counting noFault
  | @unlocated s answer other _ within missing =>
      obtain ⟨rfl, rfl⟩ := redirected.unique other
      rw [counted_eq counts few] at within
      refine ⟨fun _ located => ?_, fun reached => absurd within (by omega)⟩
      rw [missing] at located
      cases located
  | @redirects s answer location after context redirects =>
      have other : Redirected w c s answer :=
        ⟨redirects.active, redirects.answered, redirects.follows,
          redirects.isRedirect⟩
      obtain ⟨rfl, rfl⟩ := redirected.unique other
      have within := redirects.within
      rw [counted_eq counts few] at within
      refine ⟨fun _ _ => ⟨after, context, .redirected c :: rest, rfl⟩,
        fun reached => absurd within (by omega)⟩
  | finishes others =>
      exact ((others r response redirected.active redirected.answered).2
        redirected).elim

theorem Countable.adjusts
    {middle : World}
    (countable : Countable w c r response)
    (adjusts : Adjusts w middle) :
    Countable middle c r response := by
  obtain ⟨few, starts⟩ := countable
  have sameCount := adjusts.keeps.followed r
  refine ⟨by rw [sameCount]; exact few, fun isOver => ?_⟩
  rw [sameCount, adjusts.fields] at isOver
  exact adjusts.nextStarts (starts isOver)

theorem Analyzed.after
    {middle : World}
    {step : Step}
    (analyzed : Analyzed middle step)
    (silent : Silent w middle) :
    Analyzed w step := by
  constructor
  · intro next frames executed
    obtain ⟨later, tally⟩ := analyzed.next next frames executed
    exact ⟨silent.trans later, tally⟩
  · intro next executed
    obtain ⟨later, counts⟩ := analyzed.raise next executed
    exact ⟨silent.trans later, counts⟩

theorem Decides.adjusts
    {middle : World}
    {step : Step}
    (decides : Decides middle c r response step)
    (adjusts : Adjusts w middle) :
    Decides w c r response step := by
  have sameCount := adjusts.keeps.followed r
  have sameLimit : (middle.requests r).redirectionLimit =
      (w.requests r).redirectionLimit := by
    rw [adjusts.fields]
  constructor
  · intro below located
    rw [← sameCount, ← sameLimit] at below
    exact decides.permits below located
  · intro reached
    rw [← sameCount, ← sameLimit] at reached
    obtain ⟨next, answer, below, events, executed, trace, isEnd⟩ :=
      decides.refuses reached
    obtain ⟨early, before, kept⟩ := adjusts.trace
    rw [sameLimit] at executed
    refine ⟨next, answer, below, early ++ events, executed, ?_, ?_⟩
    · rw [trace, before, List.append_assoc]
    · rw [ends, List.filterMap_append]
      exact congrArg₂ (· ++ ·) (ends_of_kept kept) isEnd

theorem Receives.analyzed
    {answer : Option (Nat × Response)}
    {step : Step}
    (receives : Receives w answer step)
    (counts : Counts w)
    (countable : CountableAnswer w answer) :
    Analyzed w step := by
  cases receives with
  | stirs stirs =>
      exact (stirs.accounts counts (by simp)).analyzed
  | delivers d buffer buf keeps =>
      constructor
      · rintro next frames ⟨⟩
        exact ⟨keeps.silent, .counts (counts.keeps keeps) (by simp [isAnnouncement])⟩
      · rintro next ⟨⟩
  | finishes d error adjusts =>
      have accounts := accounts_finishRequest (counts.keeps adjusts.keeps) d error
      exact (accounts.after adjusts.keeps.silent).analyzed
  | @analyzes middle d answer rest adjusts answered remains =>
      refine Analyzed.after ?_ adjusts.keeps.silent
      refine analyzeRequest_analyzed (counts.keeps adjusts.keeps) remains ?_
      intro s other redirected
      have sameAnswer := answered.symm.trans redirected.answered
      cases sameAnswer
      refine (countable (d, answer) rfl s ?_ ?_ redirected.isRedirect).adjusts adjusts
      · rw [← adjusts.request]
        exact redirected.active
      · have follows := redirected.follows
        rwa [adjusts.fields] at follows

theorem Receives.decides
    {step : Step}
    (receives : Receives w (some (c, response)) step)
    (counts : Counts w)
    (countable : CountableAnswer w (some (c, response)))
    (active : (w.clients c).request = some r)
    (follows : (w.requests r).followRedirect = true)
    (isRedirect : ClientSide.isRedirect response.code = true)
    (noFault : ∀ reason, step ≠ .fault reason) :
    Decides w c r response step := by
  have countable := countable (c, response) rfl r active follows isRedirect
  cases receives with
  | @analyzes middle _ _ rest adjusts answered remains =>
      refine Decides.adjusts ?_ adjusts
      refine analyzeRequest_decides (counts.keeps adjusts.keeps)
        ⟨?_, answered, ?_, isRedirect⟩ (countable.adjusts adjusts) noFault
      · rw [adjusts.request]
        exact active
      · rw [adjusts.fields]
        exact follows

theorem Departs.silent
    {next : World}
    (departs : Departs w c next) :
    Silent w next := by
  obtain ⟨r, middle, _, _, first, second⟩ := departs
  have before : Silent w middle := first.silent (w := w.settled c)
  have after : Silent middle next := second.silent (w := middle.leaving c r)
  exact before.trans after

theorem Counts.settled (counts : Counts w) (c : Nat) : Counts (w.settled c) :=
  counts

/-- Every piece of code but the announcement of a redirect. -/
theorem code_analyzed
    {frame : Frame}
    (counts : Counts w)
    (ordinary : isAnnouncement frame = false)
    (countable :
      ∀ d buffer buf,
        frame = .onRead d buffer buf → CountableAnswer w (w.readAnswer d buf)) :
    Analyzed w (code frame w) := by
  cases marked : isMarked frame with
  | false =>
      exact ((code_stirs w marked).accounts counts (by simp)).analyzed
  | true =>
      cases frame with
      | fire callback =>
          cases callback with
          | redirectEvent _ _ _ _ =>
              cases ordinary
          | _ =>
              cases marked
      | onRead d buffer buf =>
          exact (onReadLoop_receives w d buffer buf).analyzed counts
            (countable d buffer buf rfl)
      | redirected d =>
          cases canceled : (w.clients d).redirectCanceled with
          | true =>
              have settled : code (.redirected d) w = .next (w.settled d) [] :=
                redirected_canceled canceled
              rw [settled]
              constructor
              · rintro next frames ⟨⟩
                exact ⟨⟨[], by simp [World.settled, World.setClient], by simp⟩,
                  .counts (counts.settled d) (by simp)⟩
              · rintro next ⟨⟩
          | false =>
              obtain ⟨goes, raises⟩ := redirected_departs canceled
              constructor
              · intro next frames executed
                obtain ⟨rfl, departs⟩ := goes next frames executed
                exact ⟨departs.silent, .counts (counts.departs departs) (by simp)⟩
              · intro next executed
                have departs := raises next executed
                exact ⟨departs.silent, counts.departs departs⟩
      | redirectCatch d =>
          have stirs :
              Stirs (w.settled d) none (fun _ => True)
                ((w.settled d).cancel d (some .operationCanceled)) :=
            .cancel _ (Adjusts.refl _) trivial
          have accounts := stirs.accounts (counts.settled d) (by simp)
          have analyzed : Analyzed (w.settled d) (w.redirectCatch d) :=
            (accounts.andFrames (by simp [isAnnouncement])).analyzed
          exact analyzed.after ⟨[], by simp [World.settled, World.setClient], by simp⟩
      | _ =>
          cases marked

theorem accept_analyzed
    {input : Input}
    {top : Option Frame}
    {outcome : Step}
    (counts : Counts w)
    (accepted : accept input top w = some outcome)
    (countable : CountableAnswer w (w.inputAnswer input))
    (zero : ∀ s ∈ offeredRequest input, followed s w.trace = 0) :
    Analyzed w outcome := by
  cases reception : isReception input with
  | false =>
      exact ((accept_stirs reception accepted).accounts counts zero).analyzed
  | true =>
      exact (accept_receives reception accepted).2.analyzed counts countable

end Analyzed

/-! ## Runs -/

section

variable {w next : World} {frames stack : List Frame}

theorem Tally.below
    (tally : Tally w frames)
    (ordinary : ∀ frame ∈ stack, isAnnouncement frame = false) :
    Tally w (frames ++ stack) := by
  cases tally with
  | counts counts none =>
      exact counts.tally none ordinary
  | ahead counters within none =>
      refine .ahead counters within fun frame member => ?_
      exact (List.mem_append.mp member).elim (none frame) (ordinary frame)

/-- The announced redirect becomes one of those that have been followed. -/
theorem Tally.fires
    {c r : Nat}
    {response : Response}
    {context : RedirectContext}
    (tally : Tally w (.fire (.redirectEvent c r response context) :: stack)) :
    Counts (w.emit (.fired (.redirectEvent c r response context))) ∧
      followed r w.trace + 1 ≤ (w.requests r).redirectionLimit := by
  cases tally with
  | counts _ none =>
      cases none _ List.mem_cons_self
  | ahead counters within _ =>
      refine ⟨fun s => ?_, ?_⟩
      · change (w.requests s).redirectionCounter =
          followed s (w.trace ++ [.fired (.redirectEvent c r response context)])
        rw [followed_fired, counters s]
        by_cases same : s = r
        · rw [if_pos same, if_pos same.symm]
        · rw [if_neg same, if_neg fun isSame => same isSame.symm]
      · rwa [counters r, if_pos rfl] at within

theorem tally_preserved : machine.Preserves KeepsCount Tally where
  tick frame rest w next frames _ permitted holds executed := by
    cases announces : isAnnouncement frame with
    | false =>
        refine ((code_analyzed (holds.ordinary announces) announces ?_).next next
          frames executed).2.below holds.rest
        rintro d buffer buf rfl
        exact permitted.1
    | true =>
        cases frame with
        | fire callback =>
            cases callback with
            | redirectEvent c r response context =>
                cases executed
                refine holds.fires.1.tally ?_ holds.rest
                intro frame member
                obtain ⟨listener, _, rfl⟩ := List.mem_map.mp member
                cases listener <;> rfl
            | _ =>
                cases announces
        | _ =>
            cases announces
  tickRaise frame rest w next _ permitted holds executed := by
    cases announces : isAnnouncement frame with
    | false =>
        refine .counts ((code_analyzed (holds.ordinary announces) announces
          ?_).raise next executed).2 (unwind_announces holds.rest)
        rintro d buffer buf rfl
        exact permitted.1
    | true =>
        cases frame with
        | fire callback =>
            cases executed
        | _ =>
            cases announces
  ret frame rest w callback holds := by
    cases frame with
    | callback _ =>
        exact .counts (holds.ordinary rfl) holds.rest
    | _ =>
        cases callback
  throw frame rest w callback _ _ holds := by
    cases frame with
    | callback _ =>
        exact .counts (holds.ordinary rfl) (unwind_announces holds.rest)
    | _ =>
        cases callback
  input input stack w next frames boundary permitted holds accepted := by
    obtain ⟨counts, none⟩ := holds.boundary boundary
    exact ((accept_analyzed counts accepted permitted.1 permitted.2).next next
      frames rfl).2.below none
  inputRaise input stack w next boundary permitted holds accepted := by
    obtain ⟨counts, none⟩ := holds.boundary boundary
    exact .counts ((accept_analyzed counts accepted permitted.1
      permitted.2).raise next rfl).2 none

theorem Silent.refl (w : World) : Silent w w :=
  ⟨[], by simp, by simp⟩

/-- A step that does not fail observes no `redirect_event`. -/
theorem Analyzed.silent
    {before : Config}
    {step : Step}
    (analyzed : Analyzed before.state step)
    (noFault : (machine.resume before stack step).fault = none) :
    Silent before.state (machine.resume before stack step).state := by
  cases step with
  | next next frames =>
      exact (analyzed.next next frames rfl).1
  | raise next =>
      exact (analyzed.raise next rfl).1
  | fault reason =>
      cases noFault

/-- The part of `LimitedStep` about `redirect_event`. -/
theorem fires_of_silent
    (silent : Silent w next) :
    ∃ events,
      next.trace = w.trace ++ events ∧
        ∀ c r response context,
          .fired (.redirectEvent c r response context) ∈ events →
          followed r next.trace ≤ (next.requests r).redirectionLimit := by
  obtain ⟨events, trace, none⟩ := silent
  exact ⟨events, trace, fun c r response context member =>
    (none c r response context member).elim⟩

theorem fires_of_tally
    {before after : Config}
    {label : Label}
    (keeps : KeepsCount before label)
    (tally : Tally before.state before.stack)
    (stepped : machine.step? before label = some after)
    (noFault : after.fault = none) :
    ∃ events,
      after.state.trace = before.state.trace ++ events ∧
        ∀ c r response context,
          .fired (.redirectEvent c r response context) ∈ events →
          followed r after.state.trace ≤
            (after.state.requests r).redirectionLimit := by
  obtain ⟨w, stack, fault⟩ := before
  cases fault with
  | some reason =>
      simp [CallMachine.Machine.step?] at stepped
  | none =>
  cases label with
  | tick =>
      cases stack with
      | nil =>
          simp [CallMachine.Machine.step?] at stepped
      | cons frame rest =>
          cases isCode : isCallback frame with
          | true =>
              have callback : machine.isCallback frame = true := isCode
              simp [CallMachine.Machine.step?, callback] at stepped
          | false =>
              obtain ⟨_, rfl⟩ := step_of_code rfl isCode stepped
              cases announces : isAnnouncement frame with
              | false =>
                  refine fires_of_silent (Analyzed.silent
                    (code_analyzed (tally.ordinary announces) announces ?_)
                    noFault)
                  rintro d buffer buf rfl
                  exact keeps.1
              | true =>
                  cases frame with
                  | fire callback =>
                      cases callback with
                      | redirectEvent c r response context =>
                          refine ⟨[_], rfl, fun d s answer other member => ?_⟩
                          cases List.mem_singleton.mp member
                          change followed r (w.trace ++ [_]) ≤ _
                          rw [followed_fired, if_pos rfl]
                          exact tally.fires.2
                      | _ =>
                          cases announces
                  | _ =>
                      cases announces
  | ret =>
      cases stack with
      | nil =>
          simp [CallMachine.Machine.step?] at stepped
      | cons frame rest =>
          simp only [CallMachine.Machine.step?, Option.ite_none_right_eq_some,
            Option.some.injEq] at stepped
          obtain ⟨_, rfl⟩ := stepped
          exact fires_of_silent (.refl w)
  | throw =>
      cases stack with
      | nil =>
          simp [CallMachine.Machine.step?] at stepped
      | cons frame rest =>
          simp only [CallMachine.Machine.step?, Option.ite_none_right_eq_some,
            Option.some.injEq] at stepped
          obtain ⟨_, rfl⟩ := stepped
          exact fires_of_silent (.refl w)
  | input input =>
      simp only [CallMachine.Machine.step?, Option.ite_none_right_eq_some,
        Option.map_eq_some_iff] at stepped
      obtain ⟨boundary, outcome, accepted, rfl⟩ := stepped
      exact fires_of_silent (Analyzed.silent
        (accept_analyzed (tally.boundary boundary).1 accepted keeps.1 keeps.2)
        noFault)

/-- What comes after a redirect that a client receives. -/
theorem decides_of_tally
    {before after : Config}
    {label : Label}
    {c r : Nat}
    {response : Response}
    (keeps : KeepsCount before label)
    (tally : Tally before.state before.stack)
    (stepped : machine.step? before label = some after)
    (noFault : after.fault = none)
    (redirecting : Redirecting before label c r response) :
    ∃ step below,
      Decides before.state c r response step ∧
        after = machine.resume before below step := by
  obtain ⟨answer, active, follows, isRedirect⟩ := redirecting
  obtain ⟨w, stack, fault⟩ := before
  cases fault with
  | some reason =>
      simp [CallMachine.Machine.step?] at stepped
  | none =>
  have countable := keeps.1
  rw [answer] at countable
  cases label with
  | ret | throw =>
      cases answer
  | tick =>
      unfold answer? at answer
      dsimp only at answer
      split at answer
      · rename_i d buffer buf rest
        obtain ⟨_, rfl⟩ := step_of_code rfl rfl stepped
        have receives := onReadLoop_receives w d buffer buf
        rw [answer] at receives
        refine ⟨_, _, receives.decides (tally.ordinary rfl) countable active follows
          isRedirect ?_, rfl⟩
        intro reason executed
        have failed : code (.onRead d buffer buf) w = .fault reason := executed
        change (machine.resume _ rest (code (.onRead d buffer buf) w)).fault = none
          at noFault
        rw [failed] at noFault
        cases noFault
      · cases answer
  | input input =>
      simp only [CallMachine.Machine.step?, Option.ite_none_right_eq_some,
        Option.map_eq_some_iff] at stepped
      obtain ⟨boundary, outcome, accepted, rfl⟩ := stepped
      have reception : isReception input = true := by
        cases input <;> first | rfl | cases answer
      have receives := (accept_receives reception accepted).2
      rw [show w.inputAnswer input = some (c, response) from answer] at receives
      refine ⟨_, _, receives.decides (tally.boundary boundary).1 countable active
        follows isRedirect ?_, rfl⟩
      rintro reason rfl
      cases noFault

theorem limitedStep_of_tally
    {before after : Config}
    {label : Label}
    (keeps : KeepsCount before label)
    (tally : Tally before.state before.stack)
    (stepped : machine.step? before label = some after)
    (noFault : after.fault = none) :
    LimitedStep before label after where
  fires := fires_of_tally keeps tally stepped noFault
  permits c r response redirecting below located := by
    obtain ⟨step, rest, decides, rfl⟩ :=
      decides_of_tally keeps tally stepped noFault redirecting
    obtain ⟨next, context, under, rfl⟩ := decides.permits below located
    exact ⟨context, under ++ rest, rfl⟩
  refuses c r response redirecting reached := by
    obtain ⟨step, rest, decides, rfl⟩ :=
      decides_of_tally keeps tally stepped noFault redirecting
    obtain ⟨next, answer, under, events, rfl, trace, isEnd⟩ :=
      decides.refuses reached
    exact ⟨⟨answer, under ++ rest, List.append_assoc _ _ _⟩, events, trace, isEnd⟩

end

/-- A redirect with a limit of one has been followed. -/
def redirectedOnce : List Label :=
  [.input (.newClient 0),
    .input (.edit 0
      { uri := some { scheme := "http", host := "here" }, redirectionLimit := 1 }),
    .input (.clientRequest 0 0),
    .input (.onConnect 0 none),
    .input (.onRead 0
      [.done { code := 302, location := some { host := "there" } }]),
    .tick,
    .tick,
    .ret,
    .tick,
    .tick,
    .input (.onConnect 0 none)]

/-- The second redirect ends the request. -/
def redirectedTwice : List Label :=
  redirectedOnce ++
    ([.input (.onRead 0
        [.done { code := 302, location := some { host := "elsewhere" } }]),
      .tick] : List Label)

/--
The callback of a redirect removes the host of the request, so that the redirect
throws; the request is submitted again.
-/
def lostAndResent : List Label :=
  [.input (.newClient 0),
    .input (.edit 0
      { uri := some { scheme := "http", host := "here" }, redirectionLimit := 1 }),
    .input (.clientRequest 0 0),
    .input (.onConnect 0 none),
    .input (.onRead 0
      [.done { code := 302, location := some { host := "there" } }]),
    .tick,
    .tick,
    .input (.edit 0 { uri := some {}, redirectionLimit := 1 }),
    .ret,
    .tick,
    .input (.edit 0
      { uri := some { scheme := "http", host := "here" }, redirectionLimit := 1 }),
    .input (.clientRequest 0 0),
    .input (.onRead 0
      [.done { code := 302, location := some { host := "there" } }])]

theorem lostAndResent_reached :
    (run? (initial {}) lostAndResent).any (fun config =>
      config.stack =
          [.onRead 0 1
            [.done { code := 302, location := some { host := "there" } }]] ∧
        (config.state.clients 0).parsing.isSome = true ∧
        (config.state.clients 0).request = some 0 ∧
        (config.state.requests 0).followRedirect = true ∧
        followed 0 config.state.trace <
          (config.state.requests 0).redirectionLimit ∧
        (machine.step? config .tick).any fun next =>
          next.fault = none ∧
            next.stack.head?.any isAnnouncement = false) = true := by
  decide +kernel

end UniEventHttp.ClientSide.World
