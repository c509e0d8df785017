import UniEventHttp.ClientMoves

namespace UniEventHttp.ClientSide.World

/-!
# The callback of a redirect

While `redirect_event` runs, the application may cancel the request, and then the
client may be given another one at once.  The code after the callback knows of
this by two flags.  It leaves the other request alone, unless the callback throws:
the `catch` block clears the flags and cancels what the client has then.
-/

/-! ## What is to be shown -/

/-- The request of the last `redirect_event`, and whether it has ended since. -/
def sinceRedirect (trace : List Event) : Option (Nat × Bool) :=
  trace.foldl
    (fun last event =>
      match event with
      | .fired (.redirectEvent _ r _ _) => some (r, false)
      | .finished r => last.map fun (s, ended) => (s, ended || r == s)
      | _ => last)
    none

/-- The requests that have ended, in order. -/
def ends (events : List Event) : List Nat :=
  events.filterMap fun
    | .finished r => some r
    | _ => none

/-- A client on which no redirect is announced. -/
def settled (w : World) (c : Nat) : World :=
  w.setClient c
    { w.clients c with inRedirect := false, redirectCanceled := false }

/-- `_in_redirect` and `_redirect_canceled` are false. -/
def Unflagged (w : World) (c : Nat) : Prop :=
  (w.clients c).inRedirect = false ∧ (w.clients c).redirectCanceled = false

/--
The code after the callback of a redirect: if the request has ended in the
callback, the flags are cleared and nothing else happens; otherwise the client
still has the request, and it ends if the callback has thrown, and only then.
-/
def Isolates (before after : World) (c : Nat) (thrown : Bool) : Prop :=
  (∀ d, after.Unflagged d) ∧
    ∃ r ended,
      sinceRedirect before.trace = some (r, ended) ∧
        (ended = true → after = before.settled c) ∧
        (ended = false →
          (before.clients c).request = some r ∧
            ∃ events,
              after.trace = before.trace ++ events ∧
                ends events = if thrown then [r] else [])

/-- The redirected request ends, and no other one. -/
def EndsRedirected (before after : World) (c : Nat) : Prop :=
  ∃ r events,
    sinceRedirect before.trace = some (r, false) ∧
      (before.clients c).request = some r ∧
      after.trace = before.trace ++ events ∧
      ends events = [r]

/-- A redirect is announced, and its request has not been cancelled. -/
def Announces (w : World) (c : Nat) : Prop :=
  (w.clients c).inRedirect = true ∧ (w.clients c).redirectCanceled = false

instance (w : World) (c : Nat) : Decidable (w.Announces c) :=
  inferInstanceAs (Decidable (_ ∧ _))

/-- A step in or after the callback of a redirect. -/
structure IsolatedStep (before : Config) (label : Label) (after : Config) : Prop where
  cancels :
    ∀ input c,
      label = .input input →
      AsksToCancel before.state input c →
      before.state.Announces c →
      EndsRedirected before.state after.state c
  returns :
    ∀ c below,
      before.stack = .redirected c :: below →
      Isolates before.state after.state c false
  throws :
    ∀ c below,
      before.stack = .redirectCatch c :: below →
      Isolates before.state after.state c true

/-- In a run that no assertion ends, the callbacks of redirects are isolated. -/
def IsolatedRun (w : World) (labels : List Label) : Prop :=
  ∀ first label rest before after,
    labels = first ++ label :: rest →
    run? w first = some before →
    machine.step? before label = some after →
    after.fault = none →
    IsolatedStep before label after

/-! ## The condition -/

/--
A callback that has cancelled the request throws only if the client has no other
request by then; where the redirected request is cancelled, by a call or because
the callback throws, the first request that waits there can be started.
-/
def KeepsApart (config : Config) : Label → Prop
  | .tick =>
      match config.stack with
      | .redirectCatch c :: _ =>
          if (config.state.clients c).redirectCanceled then
            (config.state.clients c).request = none
          else
            config.state.NextStarts c
      | _ => True
  | .input (.cancel r _) =>
      ∀ c ∈ (config.state.requests r).client,
        config.state.Announces c → config.state.NextStarts c
  | .input (.clientCancel c _) =>
      config.state.Announces c → config.state.NextStarts c
  | _ => True

instance (config : Config) (label : Label) :
    Decidable (KeepsApart config label) := by
  unfold KeepsApart
  split
  · split
    · split <;> infer_instance
    · infer_instance
  all_goals infer_instance

/-! ## Observations -/

theorem sinceRedirect_append
    (trace events : List Event)
    (kept : ∀ event ∈ events, isTurning event = false) :
    sinceRedirect (trace ++ events) = sinceRedirect trace := by
  induction events generalizing trace with
  | nil =>
      simp
  | cons event rest inductionHypothesis =>
      have regrouped : trace ++ event :: rest = (trace ++ [event]) ++ rest := by
        simp
      rw [regrouped, inductionHypothesis (trace ++ [event])
        fun other member => kept other (List.mem_cons_of_mem _ member)]
      have silent := kept event List.mem_cons_self
      unfold sinceRedirect
      rw [List.foldl_append]
      cases event with
      | fired callback =>
          cases callback <;> first | rfl | cases silent
      | _ =>
          first | rfl | cases silent

theorem sinceRedirect_finished (trace : List Event) (r : Nat) :
    sinceRedirect (trace ++ [.finished r]) =
      (sinceRedirect trace).map fun (s, ended) => (s, ended || r == s) := by
  unfold sinceRedirect
  rw [List.foldl_append]
  rfl

theorem Keeps.sinceRedirect
    {w next : World}
    (keeps : Keeps w next) :
    World.sinceRedirect next.trace = World.sinceRedirect w.trace := by
  obtain ⟨events, trace, kept⟩ := keeps.trace
  rw [trace, sinceRedirect_append _ _ kept]

theorem ends_of_kept
    {events : List Event}
    (kept : ∀ event ∈ events, isTurning event = false) :
    ends events = [] := by
  refine List.filterMap_eq_nil_iff.mpr ?_
  intro event member
  have silent := kept event member
  cases event <;> first | rfl | cases silent

/-! ## Clients and their requests -/

/-- The request of a client knows of it. -/
def Linked (w : World) : Prop :=
  ∀ c r, (w.clients c).request = some r → (w.requests r).client = some c

section Linked

variable {w next : World}

theorem Linked.keeps
    (linked : Linked w)
    (keeps : Keeps w next) :
    Linked next := by
  intro c r active
  rcases keeps.begun c r active with before | ⟨_, isLinked⟩
  · exact keeps.link r c (linked c r before)
  · exact isLinked

theorem Linked.setClient
    (linked : Linked w)
    {c : Nat}
    {client : Client}
    (same :
      client.request = (w.clients c).request ∨ client.request = none) :
    Linked (w.setClient c client) := by
  intro d r active
  refine linked d r ?_
  by_cases here : d = c
  · subst d
    simp only [World.setClient, Function.update_self] at active
    rcases same with kept | none
    · rwa [← kept]
    · rw [none] at active
      cases active
  · simpa [World.setClient, here] using active

theorem Linked.detached (linked : Linked w) (c : Nat) :
    Linked (w.detached c) :=
  linked.setClient (Or.inr rfl)

theorem Linked.cancelling (linked : Linked w) (c : Nat) :
    Linked (w.cancelling c) :=
  linked.setClient (Or.inl rfl)

/-- A request that no client has may lose its link. -/
theorem Linked.setRequest
    (linked : Linked w)
    {r : Nat}
    {request : Request}
    (same :
      request.client = (w.requests r).client ∨
        ∀ c, (w.clients c).request ≠ some r) :
    Linked (w.setRequest r request) := by
  intro c s active
  have before := linked c s active
  by_cases here : s = r
  · subst s
    rcases same with kept | idle
    · simpa [World.setRequest, kept] using before
    · exact (idle c active).elim
  · simpa [World.setRequest, here] using before

/-- After a request has left its client, no client has it. -/
theorem Linked.left
    {c r : Nat}
    (linked : Linked w)
    (active : (w.clients c).request = some r)
    (keeps : Keeps (w.detached c) next)
    (d : Nat) :
    (next.clients d).request ≠ some r := by
  intro again
  have isLinked : ((w.detached c).requests r).client = some c := linked c r active
  rcases keeps.begun d r again with before | ⟨free, _⟩
  · have same : c = d := by
      have other := linked.detached c d r before
      rw [isLinked] at other
      exact Option.some.inj other
    subst d
    simp [World.detached, World.setClient] at before
  · rw [isLinked] at free
    cases free

theorem Linked.finishes
    {c r : Nat}
    (linked : Linked w)
    (finishes : Finishes w c r next) :
    Linked next := by
  obtain ⟨active, middle, keeps, rfl⟩ := finishes
  exact ((linked.detached c).keeps keeps).setRequest
    (Or.inr (linked.left active keeps))

theorem Linked.loses
    {c r : Nat}
    (linked : Linked w)
    (loses : Loses w c r next) :
    Linked next :=
  (linked.detached c).keeps loses.keeps

theorem Linked.ending
    {r : Nat}
    (linked : Linked w)
    (unlinked : (w.requests r).client = none) :
    Linked (w.ending r) := by
  have idle : ∀ c, (w.clients c).request ≠ some r := by
    intro c active
    rw [linked c r active] at unlinked
    cases unlinked
  exact linked.setRequest (Or.inr idle)

theorem Linked.leaving
    {c r : Nat}
    (linked : Linked w)
    (active : (w.clients c).request = some r) :
    Linked (w.leaving c r) :=
  (linked.detached c).setRequest
    (Or.inr (linked.left active (Keeps.refl _)))

theorem Linked.move
    {offered : Option Nat}
    (linked : Linked w)
    (move : Move w offered next) :
    Linked next := by
  cases move with
  | keeps keeps =>
      exact linked.keeps keeps
  | cancels adjusts finishes =>
      exact ((linked.keeps adjusts.keeps).cancelling _).finishes finishes
  | dequeues adjusts unlinked =>
      exact (linked.keeps adjusts.keeps).ending ((adjusts.link _).trans unlinked)
  | accepts _ _ _ _ _ keeps =>
      have kept := linked.keeps keeps
      exact kept

end Linked

/-! ## The flags -/

/-- No client announces a redirect. -/
def Unannounced (w : World) : Prop :=
  ∀ c, w.Unflagged c

/--
One client announces a redirect.  It has the redirected request unless this one has
ended, and then the flag says so.
-/
structure Announcing (w : World) (c : Nat) : Prop where
  others : ∀ d, d ≠ c → w.Unflagged d
  made : c < w.nextClient
  inRedirect : (w.clients c).inRedirect = true
  since :
    ∃ r ended,
      sinceRedirect w.trace = some (r, ended) ∧
        (w.clients c).redirectCanceled = ended ∧
        (ended = false → (w.clients c).request = some r)

section Flags

variable {w next : World}

theorem Unflagged.keeps
    {c : Nat}
    (unflagged : w.Unflagged c)
    (keeps : Keeps w next) :
    next.Unflagged c := by
  refine ⟨?_, ?_⟩
  · rcases keeps.inRedirect c with same | ⟨_, off⟩
    · exact same.trans unflagged.1
    · exact off
  · rcases keeps.canceled c with same | ⟨_, off⟩
    · exact same.trans unflagged.2
    · exact off

theorem Unflagged.setClient
    {d c : Nat}
    {client : Client}
    (unflagged : w.Unflagged d)
    (off :
      d = c → client.inRedirect = false ∧ client.redirectCanceled = false) :
    (w.setClient c client).Unflagged d := by
  by_cases here : d = c
  · have both := off here
    subst d
    simpa [Unflagged, World.setClient] using both
  · simpa [Unflagged, World.setClient, here] using unflagged

theorem Unflagged.detached
    {d : Nat}
    (unflagged : w.Unflagged d)
    (c : Nat) :
    (w.detached c).Unflagged d :=
  unflagged.setClient fun same => same ▸ unflagged

theorem Unflagged.cancelling
    {d : Nat}
    (unflagged : w.Unflagged d)
    (c : Nat) :
    (w.cancelling c).Unflagged d := by
  refine unflagged.setClient ?_
  rintro rfl
  exact ⟨unflagged.1, by simp [unflagged.1, unflagged.2]⟩

theorem Unflagged.finishes
    {d c r : Nat}
    (unflagged : w.Unflagged d)
    (finishes : Finishes w c r next) :
    next.Unflagged d := by
  obtain ⟨_, middle, keeps, rfl⟩ := finishes
  have kept := (unflagged.detached c).keeps keeps
  exact kept

theorem Unflagged.move
    {d : Nat}
    {offered : Option Nat}
    (unflagged : w.Unflagged d)
    (move : Move w offered next) :
    next.Unflagged d := by
  cases move with
  | keeps keeps =>
      exact unflagged.keeps keeps
  | cancels adjusts finishes =>
      exact ((unflagged.keeps adjusts.keeps).cancelling _).finishes finishes
  | dequeues adjusts _ =>
      have kept := unflagged.keeps adjusts.keeps
      exact kept
  | accepts _ _ _ _ _ keeps =>
      have kept := unflagged.keeps keeps
      exact kept

theorem calm_settled
    {c : Nat}
    (others : ∀ d, d ≠ c → w.Unflagged d) :
    (w.settled c).Unannounced := by
  intro d
  by_cases here : d = c
  · subst d
    simp [Unflagged, settled, World.setClient]
  · exact (others d here).setClient fun same => (here same).elim

/-- Nothing happens to the client that announces a redirect. -/
theorem Announcing.keeps
    {c : Nat}
    (announcing : Announcing w c)
    (keeps : Keeps w next) :
    Announcing next c := by
  have known : ¬ w.nextClient ≤ c := Nat.not_le_of_lt announcing.made
  obtain ⟨r, ended, since, canceled, active⟩ := announcing.since
  refine ⟨fun d other => (announcing.others d other).keeps keeps,
    announcing.made.trans_le keeps.nextClient, ?_, r, ended, ?_, ?_, ?_⟩
  · rcases keeps.inRedirect c with same | ⟨new, _⟩
    · exact same.trans announcing.inRedirect
    · exact (known new).elim
  · rw [keeps.sinceRedirect, since]
  · rcases keeps.canceled c with same | ⟨new, _⟩
    · exact same.trans canceled
    · exact (known new).elim
  · exact fun notEnded => keeps.stays c r announcing.made (active notEnded)

/-- The end of a submission is observed. -/
theorem Announcing.observes
    {c s : Nat}
    (announcing : Announcing w c)
    (other :
      ∀ r,
        sinceRedirect w.trace = some (r, false) → s ≠ r) :
    Announcing (w.ending s) c := by
  obtain ⟨r, ended, since, canceled, active⟩ := announcing.since
  refine ⟨announcing.others, announcing.made, announcing.inRedirect, r, ended, ?_,
    canceled, active⟩
  change sinceRedirect (w.trace ++ [.finished s]) = _
  rw [sinceRedirect_finished, since]
  cases ended with
  | true =>
      rfl
  | false =>
      simp [other r since]

/-- A client is released while a client announces a redirect. -/
structure Released (w next : World) (c d : Nat) : Prop where
  others : ∀ e, e ≠ c → next.Unflagged e
  made : c < next.nextClient
  inRedirect : (next.clients c).inRedirect = true
  canceled :
    (next.clients c).redirectCanceled =
      (decide (c = d) || (w.clients c).redirectCanceled)
  since : sinceRedirect next.trace = sinceRedirect w.trace
  active :
    ∀ r,
      c ≠ d →
      (w.clients c).request = some r →
      (next.clients c).request = some r

theorem Announcing.released
    {c d : Nat}
    (announcing : Announcing w c)
    (keeps : Keeps ((w.cancelling d).detached d) next) :
    Released w next c d := by
  have known : ¬ ((w.cancelling d).detached d).nextClient ≤ c :=
    Nat.not_le_of_lt announcing.made
  refine ⟨?_, announcing.made.trans_le keeps.nextClient, ?_, ?_,
    keeps.sinceRedirect, ?_⟩
  · intro e other
    exact (((announcing.others e other).cancelling d).detached d).keeps keeps
  · rcases keeps.inRedirect c with same | ⟨new, _⟩
    · rw [same, ← announcing.inRedirect]
      by_cases here : c = d
      · subst d
        simp [World.cancelling, World.detached, World.setClient]
      · simp [World.cancelling, World.detached, World.setClient, here]
    · exact (known new).elim
  · rcases keeps.canceled c with same | ⟨new, _⟩
    · rw [same]
      by_cases here : c = d
      · subst d
        simp [World.cancelling, World.detached, World.setClient,
          announcing.inRedirect]
      · simp [World.cancelling, World.detached, World.setClient, here]
    · exact (known new).elim
  · intro r here active
    refine keeps.stays c r announcing.made ?_
    simpa [World.cancelling, World.detached, World.setClient, here] using active

/-- The client that announces a redirect ends its request, or another one. -/
theorem Announcing.finishes
    {c d s : Nat}
    (linked : Linked w)
    (announcing : Announcing w c)
    (finishes : Finishes (w.cancelling d) d s next) :
    Announcing next c := by
  obtain ⟨active, middle, keeps, rfl⟩ := finishes
  have activeBefore : (w.clients d).request = some s := by
    simpa [World.cancelling, World.setClient] using active
  have released := announcing.released keeps
  obtain ⟨r, ended, since, wasCanceled, wasActive⟩ := announcing.since
  have trace :
      sinceRedirect (middle.ending s).trace = some (r, ended || s == r) := by
    change sinceRedirect (middle.trace ++ [.finished s]) = _
    rw [sinceRedirect_finished, released.since, since]
    rfl
  -- the flag is set exactly when the request that ends is the redirected one
  have sameEnd : ended = false → (c = d ↔ s = r) := by
    intro notEnded
    have has := wasActive notEnded
    constructor
    · rintro rfl
      rw [activeBefore] at has
      exact Option.some.inj has
    · rintro rfl
      have one := linked c s has
      rw [linked d s activeBefore] at one
      exact (Option.some.inj one).symm
  refine ⟨released.others, released.made, released.inRedirect, r,
    ended || s == r, trace, ?_, ?_⟩
  · change (middle.clients c).redirectCanceled = _
    rw [released.canceled, wasCanceled]
    cases ended with
    | true =>
        simp
    | false =>
        by_cases same : s = r <;> simp [sameEnd rfl, same]
  · intro notEnded
    simp only [Bool.or_eq_false_iff, beq_eq_false_iff_ne] at notEnded
    refine released.active r (fun here => ?_) (wasActive notEnded.1)
    exact notEnded.2 ((sameEnd notEnded.1).mp here)

/-- The redirected request is not lost, where the next one can be started. -/
theorem Announcing.loses
    {c d s : Nat}
    (announcing : Announcing w c)
    (starts : d = c → w.Announces c → w.NextStarts c)
    (loses : Loses (w.cancelling d) d s next) :
    Announcing next c := by
  have released := announcing.released loses.keeps
  obtain ⟨r, ended, since, wasCanceled, wasActive⟩ := announcing.since
  have other : ended = false → c ≠ d := by
    rintro notEnded rfl
    have announces : w.Announces c :=
      ⟨announcing.inRedirect, wasCanceled.trans notEnded⟩
    exact loses.refuses ((starts rfl announces).setClient rfl rfl)
  refine ⟨released.others, released.made, released.inRedirect, r, ended,
    released.since.trans since, ?_, ?_⟩
  · rw [released.canceled, wasCanceled]
    cases ended with
    | true =>
        simp
    | false =>
        simp [other rfl]
  · exact fun notEnded =>
      released.active r (other notEnded) (wasActive notEnded)

theorem Announcing.move
    {c : Nat}
    {offered : Option Nat}
    (linked : Linked w)
    (announcing : Announcing w c)
    (move : Move w offered next) :
    Announcing next c := by
  cases move with
  | keeps keeps =>
      exact announcing.keeps keeps
  | cancels adjusts finishes =>
      exact (announcing.keeps adjusts.keeps).finishes
        (linked.keeps adjusts.keeps) finishes
  | @dequeues middle s adjusts unlinked =>
      refine (announcing.keeps adjusts.keeps).observes ?_
      rintro r since rfl
      rw [adjusts.keeps.sinceRedirect] at since
      obtain ⟨_, ended, isSince, _, active⟩ := announcing.since
      rw [since] at isSince
      cases isSince
      rw [linked c s (active rfl)] at unlinked
      cases unlinked
  | @accepts middle r pool loop time timeout _ keeps =>
      have kept := announcing.keeps keeps
      obtain ⟨s, ended, since, canceled, active⟩ := kept.since
      refine ⟨kept.others, kept.made, kept.inRedirect, s, ended, ?_, canceled,
        active⟩
      unfold sinceRedirect at since ⊢
      simpa [World.emit, List.foldl_append] using since

end Flags

/-! ## The stack -/

/-- Stacks on which the application may be called. -/
inductive Calls (w : World) : List Frame → Prop where
  | calm {upper rest : List Frame} :
      w.Unannounced → Unmarked upper → Remains rest → Calls w (upper ++ rest)
  | announcing {upper rest : List Frame} {c : Nat} :
      Announcing w c →
      Unmarked upper →
      Remains rest →
      Calls w (upper ++ .redirected c :: rest)

/-- Stacks of a run. -/
inductive Phase (w : World) : List Frame → Prop where
  | calls {stack : List Frame} : Calls w stack → Phase w stack
  /-- `redirect_event` is about to be fired. -/
  | announced {c r : Nat} {response : Response} {context : RedirectContext}
      {rest : List Frame} :
      (∀ d, d ≠ c → w.Unflagged d) →
      c < w.nextClient →
      w.Announces c →
      (w.clients c).request = some r →
      Remains rest →
      Phase w
        (.fire (.redirectEvent c r response context) :: .redirected c :: rest)
  /-- The callback of a redirect has thrown. -/
  | caught {c : Nat} {rest : List Frame} :
      Announcing w c → Remains rest → Phase w (.redirectCatch c :: rest)

section Stack

variable {w next : World} {stack : List Frame}

theorem Remains.unwind {rest : List Frame} (remains : Remains rest) :
    machine.unwind rest = [] := by
  cases remains <;> rfl

theorem Remains.marked
    {frame : Frame}
    {rest : List Frame}
    (remains : Remains (frame :: rest)) :
    rest = [] ∧ ∃ c buffer buf, frame = .onRead c buffer buf := by
  cases remains
  exact ⟨rfl, _, _, _, rfl⟩

/-- Frames on top of the stack that belong to no redirect may be pushed. -/
theorem Calls.push
    {frames : List Frame}
    (calls : Calls w stack)
    (unmarked : Unmarked frames) :
    Calls w (frames ++ stack) := by
  cases calls with
  | calm calm upper remains =>
      rw [← List.append_assoc]
      exact .calm calm (unmarked.append upper) remains
  | announcing announcing upper remains =>
      rw [← List.append_assoc]
      exact .announcing announcing (unmarked.append upper) remains

/-- Such frames may be popped. -/
theorem Calls.pop
    {frame : Frame}
    (calls : Calls w (frame :: stack))
    (unmarked : isMarked frame = false) :
    Calls w stack := by
  generalize shape : frame :: stack = whole at calls
  cases calls with
  | @calm upper rest calm unmarkedUpper remains =>
      cases upper with
      | nil =>
          rw [List.nil_append] at shape
          subst shape
          obtain ⟨_, _, _, _, rfl⟩ := remains.marked
          cases unmarked
      | cons first others =>
          cases shape
          exact .calm calm
            (fun other member =>
              unmarkedUpper other (List.mem_cons_of_mem _ member)) remains
  | @announcing upper rest c announcing unmarkedUpper remains =>
      cases upper with
      | nil =>
          cases shape
          cases unmarked
      | cons first others =>
          cases shape
          exact .announcing announcing
            (fun other member =>
              unmarkedUpper other (List.mem_cons_of_mem _ member)) remains

/-- An exception stops at application code, or at the `catch` block. -/
theorem Calls.unwind (calls : Calls w stack) :
    Phase w (machine.unwind stack) := by
  induction stack with
  | nil =>
      exact .calls calls
  | cons frame rest inductionHypothesis =>
      cases marked : isMarked frame with
      | false =>
          by_cases callback : machine.isCallback frame = true
          · have stops : machine.unwind (frame :: rest) = frame :: rest := by
              simp [CallMachine.Machine.unwind, callback]
            rw [stops]
            exact .calls calls
          · have passes :
                machine.unwind (frame :: rest) = machine.unwind rest := by
              cases frame with
              | callback _ =>
                  exact (callback rfl).elim
              | redirected _ =>
                  cases marked
              | _ =>
                  rfl
            rw [passes]
            exact inductionHypothesis (calls.pop marked)
      | true =>
          generalize shape : frame :: rest = whole at calls
          cases calls with
          | @calm upper others calm unmarked remains =>
              cases upper with
              | nil =>
                  rw [List.nil_append, remains.unwind]
                  exact .calls (.calm calm unmarked_nil .nothing)
              | cons first _ =>
                  cases shape
                  rw [unmarked _ List.mem_cons_self] at marked
                  cases marked
          | @announcing upper others c announcing unmarked remains =>
              cases upper with
              | nil =>
                  exact .caught announcing remains
              | cons first _ =>
                  cases shape
                  rw [unmarked _ List.mem_cons_self] at marked
                  cases marked

theorem Calls.move
    {offered : Option Nat}
    (linked : Linked w)
    (calls : Calls w stack)
    (move : Move w offered next) :
    Calls next stack := by
  cases calls with
  | calm calm upper remains =>
      exact .calm (fun c => (calm c).move move) upper remains
  | announcing announcing upper remains =>
      exact .announcing (announcing.move linked move) upper remains

theorem Calls.keeps
    (calls : Calls w stack)
    (keeps : Keeps w next) :
    Calls next stack := by
  cases calls with
  | calm calm upper remains =>
      exact .calm (fun c => (calm c).keeps keeps) upper remains
  | announcing announcing upper remains =>
      exact .announcing (announcing.keeps keeps) upper remains

/-- Below code that belongs to no redirect, nothing is announced or caught. -/
theorem Phase.unmarked
    {frame : Frame}
    (phase : Phase w (frame :: stack))
    (unmarked : isMarked frame = false) :
    Calls w (frame :: stack) := by
  cases phase with
  | calls calls =>
      exact calls
  | announced _ _ _ _ _ | caught _ _ =>
      cases unmarked

/-- What is marked is at the bottom of a stack on which the application is called. -/
theorem Calls.marked
    {frame : Frame}
    (calls : Calls w (frame :: stack))
    (marked : isMarked frame = true) :
    (stack = [] ∧ w.Unannounced ∧ ∃ c buffer buf, frame = .onRead c buffer buf) ∨
      Remains stack ∧ ∃ c, frame = .redirected c ∧ Announcing w c := by
  generalize shape : frame :: stack = whole at calls
  cases calls with
  | @calm upper rest calm unmarked remains =>
      cases upper with
      | nil =>
          rw [List.nil_append] at shape
          subst shape
          exact Or.inl ⟨remains.marked.1, calm, remains.marked.2⟩
      | cons first others =>
          cases shape
          rw [unmarked _ List.mem_cons_self] at marked
          cases marked
  | @announcing upper rest c announcing unmarked remains =>
      cases upper with
      | nil =>
          cases shape
          exact Or.inr ⟨remains, c, rfl, announcing⟩
      | cons first others =>
          cases shape
          rw [unmarked _ List.mem_cons_self] at marked
          cases marked

/-- `on_read` goes on when no redirect is announced. -/
theorem Phase.onRead
    {c buffer : Nat}
    {buf : List Parsed}
    (phase : Phase w (.onRead c buffer buf :: stack)) :
    stack = [] ∧ w.Unannounced := by
  cases phase with
  | calls calls =>
      rcases calls.marked rfl with ⟨empty, calm, _⟩ | ⟨_, _, isRedirected, _⟩
      · exact ⟨empty, calm⟩
      · cases isRedirected

theorem Phase.redirected
    {c : Nat}
    (phase : Phase w (.redirected c :: stack)) :
    Announcing w c ∧ Remains stack := by
  cases phase with
  | calls calls =>
      rcases calls.marked rfl with ⟨_, _, _, _, _, isRead⟩ |
        ⟨remains, _, same, announcing⟩
      · cases isRead
      · cases same
        exact ⟨announcing, remains⟩

theorem Phase.redirectCatch
    {c : Nat}
    (phase : Phase w (.redirectCatch c :: stack)) :
    Announcing w c ∧ Remains stack := by
  cases phase with
  | calls calls =>
      rcases calls.marked rfl with ⟨_, _, _, _, _, isRead⟩ | ⟨_, _, same, _⟩
      · cases isRead
      · cases same
  | caught announcing remains =>
      exact ⟨announcing, remains⟩

/-- `redirect_event` is fired: the redirect is announced. -/
theorem Phase.fires
    {d r : Nat}
    {response : Response}
    {context : RedirectContext}
    (phase : Phase w (.fire (.redirectEvent d r response context) :: stack)) :
    Calls (w.emit (.fired (.redirectEvent d r response context))) stack := by
  cases phase with
  | calls calls =>
      rcases calls.marked rfl with ⟨_, _, _, _, _, isRead⟩ | ⟨_, _, same, _⟩
      · cases isRead
      · cases same
  | @announced c _ _ _ rest others made announces active remains =>
      refine .announcing ?_ unmarked_nil remains
      refine ⟨others, made, announces.1, r, false, ?_, announces.2, fun _ => active⟩
      unfold sinceRedirect World.emit
      rw [List.foldl_append]
      rfl

/-- When nothing runs, no redirect is announced. -/
theorem Phase.quiet (phase : Phase w []) : w.Unannounced := by
  generalize shape : [] = whole at phase
  cases phase with
  | calls calls =>
      cases calls with
      | calm calm _ _ =>
          exact calm
      | announcing _ _ _ =>
          simp at shape
  | announced _ _ _ _ _ | caught _ _ =>
      cases shape

/-- The application or the event loop may act. -/
theorem Phase.boundary
    (phase : Phase w stack)
    (boundary : machine.atBoundary stack = true) :
    Calls w stack := by
  cases phase with
  | calls calls =>
      exact calls
  | announced _ _ _ _ _ | caught _ _ =>
      cases boundary

end Stack

/-! ## Steps while no redirect is announced -/

/-- The step announces no redirect. -/
structure Settles (step : Step) : Prop where
  next :
    ∀ next frames,
      step = .next next frames → Linked next ∧ next.Unannounced ∧ Unmarked frames
  raise : ∀ next, step = .raise next → Linked next ∧ next.Unannounced

section Settles

variable {w : World}

theorem Stirs.settles
    {offered : Option Nat}
    {asked : Nat → Prop}
    {step : Step}
    (stirs : Stirs w offered asked step)
    (linked : Linked w)
    (calm : w.Unannounced) :
    Settles step := by
  constructor
  · intro next frames executed
    obtain ⟨move, unmarked⟩ := stirs.next next frames executed
    exact ⟨linked.move move, fun c => (calm c).move move, unmarked⟩
  · intro next executed
    rcases stirs.raise next executed with keeps | ⟨middle, c, r, adjusts, _, loses⟩
    · exact ⟨linked.keeps keeps, fun c => (calm c).keeps keeps⟩
    · have before := (linked.keeps adjusts.keeps).cancelling c
      refine ⟨before.loses loses, fun d => ?_⟩
      have unflagged := (calm d).keeps adjusts.keeps
      exact ((unflagged.cancelling c).detached c).keeps loses.keeps

theorem settles_cancel
    (linked : Linked w)
    (calm : w.Unannounced)
    (c : Nat)
    (error : Option ErrorCode) :
    Settles (w.cancel c error) := by
  have stirs : Stirs w none (fun _ => True) (w.cancel c error) :=
    .cancel error (Adjusts.refl w) trivial
  exact stirs.settles linked calm

theorem settles_finishRequest
    (linked : Linked w)
    (calm : w.Unannounced)
    (c : Nat)
    (error : Option ErrorCode) :
    Settles (w.finishRequest c error) := by
  constructor
  · intro next frames executed
    obtain ⟨r, response, finishes, rfl⟩ := finishRequest_next executed
    exact ⟨linked.finishes finishes, fun d => (calm d).finishes finishes,
      unmarked_endFrames r response _⟩
  · intro next executed
    obtain ⟨r, loses⟩ := finishRequest_raise executed
    exact ⟨linked.loses loses, fun d => ((calm d).detached c).keeps loses.keeps⟩

/-- A step that brings a response announces a redirect, or none is announced. -/
structure Brings (step : Step) : Prop where
  next :
    ∀ next frames, step = .next next frames → Linked next ∧ Phase next frames
  raise : ∀ next, step = .raise next → Linked next ∧ next.Unannounced

theorem Settles.brings
    {step : Step}
    {rest : List Frame}
    (settles : Settles step)
    (remains : Remains rest) :
    Brings (andFrames step rest) := by
  constructor
  · intro next frames executed
    obtain ⟨first, isNext, rfl⟩ := andFrames_next executed
    obtain ⟨linked, calm, unmarked⟩ := settles.next next first isNext
    exact ⟨linked, .calls (.calm calm unmarked remains)⟩
  · intro next executed
    exact settles.raise next (andFrames_raise executed)

theorem analyzeRequest_brings
    {rest : List Frame}
    (linked : Linked w)
    (calm : w.Unannounced)
    (introduced : Introduced w)
    (c : Nat)
    (remains : Remains rest) :
    Brings (andFrames (w.analyzeRequest c) rest) := by
  have recounted : ∀ r, Linked (w.counting r) :=
    fun r => linked.setRequest (Or.inl rfl)
  have analyses := analyzeRequest_analyses w c
  generalize w.analyzeRequest c = step at analyses ⊢
  cases analyses with
  | fails reason =>
      constructor
      · rintro next frames ⟨⟩
      · rintro next ⟨⟩
  | continues r _ _ =>
      constructor
      · rintro next frames ⟨⟩
        refine ⟨linked, .calls ?_⟩
        exact Calls.push (.calm calm unmarked_nil remains)
          (by simp [Unmarked, isMarked])
      · rintro next ⟨⟩
  | unexpected _ _ =>
      exact (settles_cancel linked calm c _).brings remains
  | limited _ _ _ | unlocated _ _ _ _ =>
      exact (settles_cancel (recounted _) calm c _).brings remains
  | @redirects r response location after context redirects =>
      constructor
      · rintro next frames ⟨⟩
        have active := redirects.active
        have shape := redirects.shape
        have link : Linked
            (w.setRequest r
              ((counted (w.requests r)).redirectedTo location)) :=
          linked.setRequest (Or.inl rfl)
        refine ⟨shape ▸ link.setClient (Or.inl rfl), ?_⟩
        refine .announced ?_ ?_ ?_ ?_ remains
        · intro d other
          rw [shape]
          exact (calm d).setClient fun same => (other same).elim
        · rw [shape]
          exact introduced c r active
        · rw [shape]
          simpa [Announces, World.setClient] using (calm c).2
        · rw [shape]
          simpa [World.setClient] using active
      · rintro next ⟨⟩
  | finishes _ =>
      exact (settles_finishRequest linked calm c none).brings remains

theorem Receives.brings
    {answer : Option (Nat × Response)}
    {step : Step}
    (receives : Receives w answer step)
    (linked : Linked w)
    (calm : w.Unannounced)
    (introduced : Introduced w) :
    Brings step := by
  cases receives with
  | stirs stirs =>
      have brings := (stirs.settles linked calm).brings .nothing
      rwa [andFrames_nil] at brings
  | delivers c buffer buf keeps =>
      constructor
      · rintro next frames ⟨⟩
        exact ⟨linked.keeps keeps,
          .calls (.calm (fun d => (calm d).keeps keeps) unmarked_nil
            (.buffer c buffer buf))⟩
      · rintro next ⟨⟩
  | finishes c error adjusts =>
      have settles :=
        settles_finishRequest (linked.keeps adjusts.keeps)
          (fun d => (calm d).keeps adjusts.keeps) c error
      have brings := settles.brings .nothing
      rwa [andFrames_nil] at brings
  | @analyzes middle c response rest adjusts _ remains =>
      refine analyzeRequest_brings (linked.keeps adjusts.keeps)
        (fun d => (calm d).keeps adjusts.keeps) ?_ c remains
      intro d r active
      rw [adjusts.nextClient]
      exact introduced d r ((adjusts.request d).symm.trans active)

end Settles

/-! ## After the callback -/

section

variable {w next : World} {c : Nat}

theorem setClient_settled
    (notCanceled : (w.clients c).redirectCanceled = false) :
    w.setClient c { w.clients c with inRedirect := false } = w.settled c := by
  unfold settled
  congr 1
  cases client : w.clients c
  simp_all

/-- The redirected request leaves its client, by a redirect or by an exception. -/
def Departs (w : World) (c : Nat) (next : World) : Prop :=
  ∃ r middle,
    (w.clients c).request = some r ∧
      (middle.clients c).request = some r ∧
      Keeps (w.settled c) middle ∧
      Keeps (middle.leaving c r) next

/-- The code after the callback of a redirect that is not cancelled. -/
theorem redirected_departs
    (notCanceled : (w.clients c).redirectCanceled = false) :
    (∀ next frames,
        w.redirected c = .next next frames → frames = [] ∧ Departs w c next) ∧
      ∀ next, w.redirected c = .raise next → Departs w c next := by
  have same := setClient_settled notCanceled
  unfold redirected
  dsimp only
  rw [if_neg (by simp [notCanceled])]
  rw [same]
  split
  · exact ⟨by rintro next frames ⟨⟩, by rintro next ⟨⟩⟩
  · exact ⟨by rintro next frames ⟨⟩, by rintro next ⟨⟩⟩
  · rename_i r response active _
    have stillActive : ((w.settled c).clients c).request = some r := by
      simpa [settled, World.setClient] using active
    generalize shape :
      (if response.code = 303 then
        (w.settled c).setRequest r
          { (w.settled c).requests r with method := .get, body := [] }
      else
        w.settled c) = middle
    have rewrites :
        Keeps (w.settled c) middle ∧ middle.clients = (w.settled c).clients := by
      rw [← shape]
      split
      · exact ⟨Keeps.setRequest _ r rfl rfl, rfl⟩
      · exact ⟨Keeps.refl _, rfl⟩
    have hasRequest : (middle.clients c).request = some r := by
      rw [rewrites.2]
      exact stillActive
    have post := followRedirect_keeps middle c r response
    cases followed : middle.followRedirect c r response with
    | ok after =>
        rw [followed] at post
        refine ⟨?_, by rintro next ⟨⟩⟩
        rintro next frames ⟨⟩
        exact ⟨rfl, r, middle, active, hasRequest, rewrites.1, post⟩
    | raise after =>
        rw [followed] at post
        refine ⟨by rintro next frames ⟨⟩, ?_⟩
        rintro next ⟨⟩
        exact ⟨r, middle, active, hasRequest, rewrites.1, post⟩
    | fault reason =>
        exact ⟨by rintro next frames ⟨⟩, by rintro next ⟨⟩⟩

theorem redirected_canceled
    (canceled : (w.clients c).redirectCanceled = true) :
    w.redirected c = .next (w.settled c) [] := by
  unfold redirected
  dsimp only
  rw [if_pos canceled]
  rfl

theorem Linked.settled (linked : Linked w) : Linked (w.settled c) :=
  linked.setClient (Or.inl rfl)

theorem Announcing.settles
    (announcing : Announcing w c) :
    (w.settled c).Unannounced :=
  calm_settled announcing.others

theorem Departs.settles
    (linked : Linked w)
    (calm : (w.settled c).Unannounced)
    (departs : Departs w c next) :
    Linked next ∧ next.Unannounced := by
  obtain ⟨r, middle, _, active, before, after⟩ := departs
  have linkedMiddle := linked.settled.keeps before
  refine ⟨(linkedMiddle.leaving active).keeps after, fun d => ?_⟩
  have left : (middle.leaving c r).Unflagged d :=
    ((calm d).keeps before).detached c
  exact left.keeps after

end

/-! ## Runs -/

/-- The condition, with what holds in every run. -/
def KeepsApartIn (config : Config) (label : Label) : Prop :=
  KeepsApart config label ∧ Introduced config.state

theorem code_phase
    {w next : World}
    {frame : Frame}
    {rest frames : List Frame}
    (introduced : Introduced w)
    (linked : Linked w)
    (phase : Phase w (frame :: rest))
    (executed : code frame w = .next next frames) :
    Linked next ∧ Phase next (frames ++ rest) := by
  cases marked : isMarked frame with
  | false =>
      obtain ⟨move, unmarked⟩ := (code_stirs w marked).next next frames executed
      have calls := (phase.unmarked marked).pop marked
      exact ⟨linked.move move, .calls ((calls.move linked move).push unmarked)⟩
  | true =>
      cases frame with
      | fire callback =>
          cases callback with
          | redirectEvent d r response context =>
              cases executed
              refine ⟨linked, .calls (phase.fires.push ?_)⟩
              intro frame member
              obtain ⟨listener, _, rfl⟩ := List.mem_map.mp member
              cases listener <;> rfl
          | _ =>
              cases marked
      | onRead c buffer buf =>
          obtain ⟨rfl, calm⟩ := phase.onRead
          rw [List.append_nil]
          exact ((onReadLoop_receives w c buffer buf).brings linked calm
            introduced).next next frames executed
      | redirected c =>
          obtain ⟨announcing, remains⟩ := phase.redirected
          cases canceled : (w.clients c).redirectCanceled with
          | true =>
              have settled := redirected_canceled canceled
              rw [show code (.redirected c) w = w.redirected c from rfl, settled]
                at executed
              cases executed
              exact ⟨linked.settled,
                .calls (.calm announcing.settles unmarked_nil remains)⟩
          | false =>
              obtain ⟨rfl, departs⟩ :=
                (redirected_departs canceled).1 next frames executed
              obtain ⟨linkedNext, calm⟩ :=
                departs.settles linked announcing.settles
              exact ⟨linkedNext, .calls (.calm calm unmarked_nil remains)⟩
      | redirectCatch c =>
          obtain ⟨announcing, remains⟩ := phase.redirectCatch
          obtain ⟨first, isNext, rfl⟩ := andFrames_next executed
          obtain ⟨linkedNext, calm, unmarked⟩ :=
            (settles_cancel linked.settled announcing.settles c _).next next first
              isNext
          refine ⟨linkedNext, .calls (.calm calm ?_ remains)⟩
          exact unmarked.append (by simp [Unmarked, isMarked])
      | _ =>
          cases marked

theorem code_phase_raise
    {w next : World}
    {frame : Frame}
    {rest : List Frame}
    (introduced : Introduced w)
    (linked : Linked w)
    (phase : Phase w (frame :: rest))
    (executed : code frame w = .raise next) :
    Linked next ∧ Phase next (machine.unwind rest) := by
  have below :
      ∀ {remaining : List Frame},
        Remains remaining →
        Linked next ∧ next.Unannounced →
        Linked next ∧ Phase next (machine.unwind remaining) := by
    rintro remaining remains ⟨linkedNext, calm⟩
    rw [remains.unwind]
    exact ⟨linkedNext, .calls (.calm calm unmarked_nil .nothing)⟩
  cases marked : isMarked frame with
  | false =>
      rcases (code_stirs w marked).raise next executed with
        keeps | ⟨_, _, _, _, never, _⟩
      · have calls := (phase.unmarked marked).pop marked
        exact ⟨linked.keeps keeps, (calls.keeps keeps).unwind⟩
      · exact never.elim
  | true =>
      cases frame with
      | fire callback =>
          cases executed
      | onRead c buffer buf =>
          obtain ⟨rfl, calm⟩ := phase.onRead
          exact below .nothing
            (((onReadLoop_receives w c buffer buf).brings linked calm
              introduced).raise next executed)
      | redirected c =>
          obtain ⟨announcing, remains⟩ := phase.redirected
          cases canceled : (w.clients c).redirectCanceled with
          | true =>
              have settled := redirected_canceled canceled
              rw [show code (.redirected c) w = w.redirected c from rfl, settled]
                at executed
              cases executed
          | false =>
              exact below remains
                (((redirected_departs canceled).2 next executed).settles linked
                  announcing.settles)
      | redirectCatch c =>
          obtain ⟨announcing, remains⟩ := phase.redirectCatch
          exact below remains
            ((settles_cancel linked.settled announcing.settles c _).raise next
              (andFrames_raise executed))
      | _ =>
          cases marked

/-- The condition, where a call is asked to cancel a request. -/
theorem KeepsApart.starts
    {config : Config}
    {input : Input}
    {c : Nat}
    (apart : KeepsApart config (.input input))
    (asks : AsksToCancel config.state input c) :
    config.state.Announces c → config.state.NextStarts c := by
  cases asks with
  | request linked =>
      exact apart c linked
  | client =>
      exact apart

theorem phase_preserved :
    machine.Preserves KeepsApartIn
      (fun w stack => Linked w ∧ Phase w stack) where
  tick frame rest w next frames _ permitted holds executed :=
    code_phase permitted.2 holds.1 holds.2 executed
  tickRaise frame rest w next _ permitted holds executed :=
    code_phase_raise permitted.2 holds.1 holds.2 executed
  ret frame rest w callback holds := by
    cases frame with
    | callback _ =>
        exact ⟨holds.1, .calls ((holds.2.unmarked rfl).pop rfl)⟩
    | _ =>
        cases callback
  throw frame rest w callback _ _ holds := by
    cases frame with
    | callback _ =>
        exact ⟨holds.1, ((holds.2.unmarked rfl).pop rfl).unwind⟩
    | _ =>
        cases callback
  input input stack w next frames boundary permitted holds accepted := by
    obtain ⟨linked, phase⟩ := holds
    have calls := phase.boundary boundary
    cases reception : isReception input with
    | false =>
        obtain ⟨move, unmarked⟩ :=
          (accept_stirs reception accepted).next next frames rfl
        exact ⟨linked.move move,
          .calls ((calls.move linked move).push unmarked)⟩
    | true =>
        obtain ⟨isEmpty, receives⟩ := accept_receives reception accepted
        have empty : stack = [] := List.head?_eq_none_iff.mp isEmpty
        subst empty
        rw [List.append_nil]
        exact (receives.brings linked phase.quiet permitted.2).next next frames
          rfl
  inputRaise input stack w next boundary permitted holds accepted := by
    obtain ⟨linked, phase⟩ := holds
    have calls := phase.boundary boundary
    cases reception : isReception input with
    | true =>
        obtain ⟨isEmpty, receives⟩ := accept_receives reception accepted
        have empty : stack = [] := List.head?_eq_none_iff.mp isEmpty
        subst empty
        obtain ⟨linkedNext, calm⟩ :=
          (receives.brings linked phase.quiet permitted.2).raise next rfl
        exact ⟨linkedNext, .calls (.calm calm unmarked_nil .nothing)⟩
    | false =>
        have stirs := accept_stirs reception accepted
        cases calls with
        | calm calm upper remains =>
            obtain ⟨linkedNext, calmNext⟩ :=
              (stirs.settles linked calm).raise next rfl
            exact ⟨linkedNext, .calls (.calm calmNext upper remains)⟩
        | @announcing upper rest c announcing unmarked remains =>
            rcases stirs.raise next rfl with
              keeps | ⟨middle, d, r, adjusts, asked, loses⟩
            · exact ⟨linked.keeps keeps,
                .calls (.announcing (announcing.keeps keeps) unmarked remains)⟩
            · have asks : AsksToCancel w input d := by
                refine asked.resolve_left ?_
                cases upper <;> simp
              have before := linked.keeps adjusts.keeps
              refine ⟨(before.cancelling d).loses loses,
                .calls (.announcing ?_ unmarked remains)⟩
              refine (announcing.keeps adjusts.keeps).loses ?_ loses
              rintro rfl announces
              refine adjusts.nextStarts (permitted.1.starts asks ⟨?_, ?_⟩)
              · exact (adjusts.inRedirect d).symm.trans announces.1
              · exact (adjusts.canceled d).symm.trans announces.2

/-- Code on top of the stack is executed by the next step. -/
theorem step_of_code
    {before after : Config}
    {label : Label}
    {frame : Frame}
    {rest : List Frame}
    (onTop : before.stack = frame :: rest)
    (isCode : isCallback frame = false)
    (stepped : machine.step? before label = some after) :
    label = .tick ∧ after = machine.resume before rest (code frame before.state) := by
  obtain ⟨w, stack, fault⟩ := before
  subst onTop
  have notCallback : machine.isCallback frame = false := isCode
  cases fault with
  | some reason =>
      simp [CallMachine.Machine.step?] at stepped
  | none =>
      cases label with
      | tick =>
          simp only [CallMachine.Machine.step?, notCallback, Bool.false_eq_true,
            if_false, Option.some.injEq] at stepped
          exact ⟨rfl, stepped.symm⟩
      | ret | throw =>
          simp [CallMachine.Machine.step?, notCallback] at stepped
      | input input =>
          simp [CallMachine.Machine.step?, CallMachine.Machine.atBoundary,
            notCallback] at stepped

section

variable {w next : World} {c : Nat}

/-- The request has ended in the callback, and only the flags are cleared. -/
theorem Announcing.isolates_settled
    (announcing : Announcing w c)
    (canceled : (w.clients c).redirectCanceled = true)
    (thrown : Bool) :
    Isolates w (w.settled c) c thrown := by
  obtain ⟨r, ended, since, isEnded, _⟩ := announcing.since
  rw [canceled] at isEnded
  refine ⟨announcing.settles, r, ended, since, fun _ => rfl, ?_⟩
  intro notEnded
  rw [notEnded] at isEnded
  cases isEnded

theorem Announcing.isolates_departs
    (announcing : Announcing w c)
    (linked : Linked w)
    (canceled : (w.clients c).redirectCanceled = false)
    (departs : Departs w c next) :
    Isolates w next c false := by
  have calm := (departs.settles linked announcing.settles).2
  obtain ⟨r, ended, since, isEnded, active⟩ := announcing.since
  rw [canceled] at isEnded
  refine ⟨calm, r, ended, since, fun isOver => ?_,
    fun notEnded => ⟨active notEnded, ?_⟩⟩
  · rw [isOver] at isEnded
    cases isEnded
  · obtain ⟨_, middle, _, _, first, second⟩ := departs
    obtain ⟨early, traceFirst, keptFirst⟩ := first.trace
    obtain ⟨late, traceSecond, keptSecond⟩ := second.trace
    refine ⟨early ++ late, ?_, ?_⟩
    · rw [traceSecond, ← List.append_assoc]
      exact congrArg (· ++ late) traceFirst
    · refine ends_of_kept fun event member => ?_
      exact (List.mem_append.mp member).elim (keptFirst event) (keptSecond event)

theorem Finishes.ends
    {r : Nat}
    (finishes : Finishes w c r next) :
    ∃ events, next.trace = w.trace ++ events ∧ ends events = [r] := by
  obtain ⟨_, middle, keeps, rfl⟩ := finishes
  obtain ⟨events, trace, kept⟩ := keeps.trace
  refine ⟨events ++ [.finished r], ?_, ?_⟩
  · change middle.trace ++ [.finished r] = _
    rw [trace, List.append_assoc]
    rfl
  · have none : World.ends events = [] := ends_of_kept kept
    unfold World.ends at none ⊢
    rw [List.filterMap_append, none]
    rfl

/-- The callback has thrown, and the redirected request ends. -/
theorem Announcing.isolates_finishes
    {r : Nat}
    (announcing : Announcing w c)
    (canceled : (w.clients c).redirectCanceled = false)
    (finishes : Finishes ((w.settled c).cancelling c) c r next) :
    Isolates w next c true := by
  have calm : next.Unannounced := fun d =>
    ((announcing.settles d).cancelling c).finishes finishes
  obtain ⟨s, ended, since, isEnded, active⟩ := announcing.since
  rw [canceled] at isEnded
  refine ⟨calm, s, ended, since, fun isOver => ?_,
    fun notEnded => ⟨active notEnded, ?_⟩⟩
  · rw [isOver] at isEnded
    cases isEnded
  · have has : (w.clients c).request = some r := by
      simpa [World.cancelling, settled, World.setClient] using finishes.1
    rw [active notEnded] at has
    cases has
    exact finishes.ends

end

/-- A call that cancels the redirected request in the callback. -/
theorem Announcing.cancels
    {w : World}
    {c : Nat}
    (announcing : Announcing w c)
    (announces : w.Announces c)
    (starts : w.NextStarts c)
    (error : Option ErrorCode) :
    (∀ next frames,
        w.cancel c error = .next next frames → EndsRedirected w next c) ∧
      ∀ next, w.cancel c error ≠ .raise next := by
  obtain ⟨r, ended, since, isEnded, active⟩ := announcing.since
  rw [announces.2] at isEnded
  subst isEnded
  have has := active rfl
  constructor
  · intro next frames executed
    rcases cancel_next executed with ⟨idle, _, _⟩ | ⟨s, _, finishes, _⟩
    · rw [has] at idle
      cases idle
    · have same : (w.clients c).request = some s := by
        simpa [World.cancelling, World.setClient] using finishes.1
      rw [has] at same
      cases same
      obtain ⟨events, trace, isEnd⟩ := finishes.ends
      exact ⟨r, events, since, has, trace, isEnd⟩
  · intro next executed
    obtain ⟨s, loses⟩ := cancel_raise executed
    exact loses.refuses (starts.setClient rfl rfl)

/-- A call that asks to cancel calls `cancel`. -/
theorem AsksToCancel.outcome
    {w : World}
    {input : Input}
    {c : Nat}
    {top : Option Frame}
    {outcome : Step}
    (asks : AsksToCancel w input c)
    (accepted : accept input top w = some outcome) :
    ∃ error, outcome = w.cancel c error := by
  cases asks with
  | @request r c error linked =>
      simp only [accept, Option.some.injEq] at accepted
      subst accepted
      exact ⟨error, by simp [requestCancel, linked]⟩
  | @client c error =>
      simp only [accept, Option.some.injEq] at accepted
      exact ⟨error, accepted.symm⟩

theorem isolatedStep_of_phase
    {before after : Config}
    {label : Label}
    (apart : KeepsApart before label)
    (linked : Linked before.state)
    (phase : Phase before.state before.stack)
    (stepped : machine.step? before label = some after)
    (noFault : after.fault = none) :
    IsolatedStep before label after where
  cancels input c isInput asks announces := by
    subst isInput
    obtain ⟨w, stack, fault⟩ := before
    have noFaultBefore : fault = none := by
      cases fault with
      | none =>
          rfl
      | some reason =>
          simp [CallMachine.Machine.step?] at stepped
    subst noFaultBefore
    simp only [CallMachine.Machine.step?, Option.ite_none_right_eq_some,
      Option.map_eq_some_iff] at stepped
    obtain ⟨boundary, outcome, accepted, rfl⟩ := stepped
    have announcing : Announcing w c := by
      have flagged : ¬ w.Unflagged c := fun off =>
        absurd (announces.1.symm.trans off.1) (by decide)
      cases phase.boundary boundary with
      | calm calm _ _ =>
          exact (flagged (calm c)).elim
      | @announcing _ _ d announcing _ _ =>
          by_cases same : c = d
          · exact same ▸ announcing
          · exact (flagged (announcing.others c same)).elim
    obtain ⟨error, rfl⟩ := asks.outcome accepted
    have starts := apart.starts asks announces
    obtain ⟨goes, never⟩ := announcing.cancels announces starts error
    cases executed : w.cancel c error with
    | next next frames =>
        exact goes next frames executed
    | raise next =>
        exact (never next executed).elim
    | fault reason =>
        rw [executed] at noFault
        cases noFault
  returns c below onTop := by
    obtain ⟨_, rfl⟩ := step_of_code onTop rfl stepped
    rw [onTop] at phase
    obtain ⟨announcing, _⟩ := phase.redirected
    change (machine.resume before below (before.state.redirected c)).fault = none
      at noFault
    change Isolates _ (machine.resume before below (before.state.redirected c)).state
      c false
    cases canceled : (before.state.clients c).redirectCanceled with
    | true =>
        rw [redirected_canceled canceled]
        exact announcing.isolates_settled canceled false
    | false =>
        obtain ⟨goes, raises⟩ := redirected_departs canceled
        cases executed : before.state.redirected c with
        | next next frames =>
            exact announcing.isolates_departs linked canceled
              (goes next frames executed).2
        | raise next =>
            exact announcing.isolates_departs linked canceled
              (raises next executed)
        | fault reason =>
            rw [executed] at noFault
            cases noFault
  throws c below onTop := by
    obtain ⟨rfl, rfl⟩ := step_of_code onTop rfl stepped
    rw [onTop] at phase
    obtain ⟨announcing, _⟩ := phase.redirectCatch
    have permitted :
        if (before.state.clients c).redirectCanceled then
          (before.state.clients c).request = none
        else
          before.state.NextStarts c := by
      unfold KeepsApart at apart
      rwa [onTop] at apart
    change (machine.resume before below (before.state.redirectCatch c)).fault = none
      at noFault
    change Isolates _
      (machine.resume before below (before.state.redirectCatch c)).state c true
    cases canceled : (before.state.clients c).redirectCanceled with
    | true =>
        rw [if_pos canceled] at permitted
        have nothing :
            before.state.redirectCatch c =
              .next (before.state.settled c) [.rethrow] := by
          unfold redirectCatch
          change andFrames ((before.state.settled c).cancel c _) _ = _
          unfold cancel
          simp [settled, World.setClient, permitted, andFrames]
        rw [nothing]
        exact announcing.isolates_settled canceled true
    | false =>
        rw [if_neg (by simp [canceled])] at permitted
        obtain ⟨r, ended, _, isEnded, active⟩ := announcing.since
        have has := active (isEnded.symm.trans canceled)
        cases executed : before.state.redirectCatch c with
        | next next frames =>
            obtain ⟨first, isNext, rfl⟩ := andFrames_next executed
            rcases cancel_next isNext with ⟨idle, _, _⟩ | ⟨s, _, finishes, _⟩
            · simp [World.setClient, has] at idle
            · exact announcing.isolates_finishes canceled finishes
        | raise next =>
            obtain ⟨s, loses⟩ := cancel_raise (andFrames_raise executed)
            have starts : (before.state.settled c).NextStarts c :=
              permitted.setClient rfl rfl
            exact (loses.refuses (starts.setClient rfl rfl)).elim
        | fault reason =>
            rw [executed] at noFault
            cases noFault

/--
The callback of a redirect cancels the request, and the response callback starts
another one on the client.
-/
def handedOver : List Label :=
  [.input (.newClient 0),
    .input (.edit 0 { uri := some { scheme := "http", host := "here" } }),
    .input (.edit 1 { uri := some { scheme := "http", host := "here" } }),
    .input (.clientRequest 0 0),
    .input (.onConnect 0 none),
    .input (.onRead 0
      [.done { code := 302, location := some { host := "there" } }]),
    .tick,
    .tick,
    .input (.cancel 0 (some .operationCanceled)),
    .tick,
    .ret,
    .tick,
    .input (.clientRequest 0 1),
    .ret]

theorem handedOver_reached :
    (run? (initial {}) (handedOver ++ [.throw])).any (fun config =>
      config.stack = [.redirectCatch 0, .onRead 0 0 []] ∧
        sinceRedirect config.state.trace = some (0, true) ∧
        (machine.step? config .tick).any fun next =>
          next.fault = none ∧
            ends next.state.trace ≠ ends config.state.trace) = true := by
  decide +kernel

end UniEventHttp.ClientSide.World
