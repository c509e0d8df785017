import UniEventHttp.ClientErrors
import UniEventHttp.ClientFairness

namespace UniEventHttp.ClientSide.World

/-!
# Cancelling requests that wait

`Pool::cancel_request` finds the place of the request, notifies the request and
erases the place through the iterator it has found.  The callbacks run in
between, and may change the queue.
-/

/-! ## The property -/

/-- A place that is to be erased when the callbacks of its request are done. -/
def cancellation : Frame → Option (Nat × NetLoc × Nat)
  | .cancelReturn p key ticket _ => some (p, key, ticket)
  | _ => none

/-- The places that are to be erased, the innermost one first. -/
def cancellations (stack : List Frame) : List (Nat × NetLoc × Nat) :=
  stack.filterMap cancellation

/-- A step in which `Pool::cancel_request` is called. -/
inductive Cancels (w : World) : Label → Nat → Nat → Option ErrorCode → Prop where
  | request {p r : Nat} {error : Option ErrorCode} :
      (w.requests r).client = none →
      (w.requests r).pool = some p →
      Cancels w (.input (.cancel r error)) p r error
  | timer {p r : Nat} {timer : Timer} :
      (w.requests r).client = none →
      (w.requests r).pool = some p →
      (w.requests r).timer = some timer →
      timer.listened = true →
      Cancels w (.input (.onTimer r)) p r (some .timedOut)

/-- The request waits in the pool. -/
def WaitsIn (w : World) (p r : Nat) : Prop :=
  ∃ key, w.Waits p key r

/-- A waiting request is cancelled: its place is found, and it is told so once. -/
def FindsPlace
    (before after : Config)
    (p r : Nat)
    (error : Option ErrorCode) :
    Prop :=
  ∃ key front place back generation,
    before.state.queueOf p key = front ++ place :: back ∧
      place.req = r ∧
      (p, key, place.ticket) ∉ cancellations before.stack ∧
      after =
        ⟨before.state.ending r,
          [.fire (.partialEvent r {} error), .fire (.responseEvent r {} error),
            .cancelReturn p key place.ticket generation] ++ before.stack,
          none⟩

/-- The place of a cancelled request is erased, and nothing else. -/
def ErasesPlace
    (before after : Config)
    (p : Nat)
    (key : NetLoc)
    (ticket : Nat) :
    Prop :=
  ∃ front place back,
    before.state.queueOf p key = front ++ place :: back ∧
      place.ticket = ticket ∧
      after.state.queueOf p key = front ++ back ∧
      after.fault = none ∧
      ∀ q other,
        ¬ (q = p ∧ other = key) →
        after.state.queueOf q other = before.state.queueOf q other

/-- In a step, cancelling requests that wait is exact. -/
structure ExactStep (before : Config) (label : Label) (after : Config) : Prop where
  enters :
    ∀ p r error,
      Cancels before.state label p r error →
      before.state.WaitsIn p r →
      FindsPlace before after p r error
  returns :
    ∀ p key ticket generation rest,
      label = .tick →
      before.stack = .cancelReturn p key ticket generation :: rest →
      after.stack = rest ∧ ErasesPlace before after p key ticket
  /-- What has been begun is ended, and by its own return only. -/
  pending :
    (∀ p r error, ¬ Cancels before.state label p r error) →
    (∀ p key ticket generation rest,
      label = .tick →
      before.stack ≠ .cancelReturn p key ticket generation :: rest) →
    cancellations after.stack = cancellations before.stack

/-- In every step of a run, cancelling requests that wait is exact. -/
def ExactRun (w : World) (labels : List Label) : Prop :=
  ∀ first label rest before after,
    labels = first ++ label :: rest →
    run? w first = some before →
    machine.step? before label = some after →
    ExactStep before label after

/-! ## The condition -/

/-- The first request of the queue of a client's location is being cancelled. -/
def TakesCancelled (config : Config) (c : Nat) : Prop :=
  ∃ p place rest,
    (config.state.clients c).pool = some p ∧
      config.state.queueOf p (config.state.clients c).netloc = place :: rest ∧
      (p, (config.state.clients c).netloc, place.ticket) ∈
        cancellations config.stack

/-- The request is put into a queue in which another one is being cancelled. -/
def JoinsCancelled (config : Config) (w : World) (p r : Nat) : Prop :=
  w.route p (w.netloc r) = .queue ∧
    ∃ ticket, (p, w.netloc r, ticket) ∈ cancellations config.stack

/--
A request that waits in the pool does not wait where `Pool::cancel_request` looks
for it, or the place found there is being cancelled.
-/
def Misses (config : Config) (p r : Nat) : Prop :=
  let w := config.state
  w.WaitsIn p r ∧
    ∀ place,
      (w.queueOf p (w.netloc r)).find? (fun place => place.req == r) =
          some place →
      (p, w.netloc r, place.ticket) ∈ cancellations config.stack

/-- The request as `UserAgent::request` gives it to the pool. -/
def agentOffers
    (w : World)
    (a r : Nat)
    (contextUri : Uri)
    (topLevel : Bool) :
    World :=
  let request := w.requests r
  let listener := Listener.agent a contextUri topLevel
  (w.setRequest r
    { request with
      responseListeners := request.responseListeners ++ [listener]
      redirectListeners := request.redirectListeners ++ [listener] }).inject a r
    contextUri topLevel (w.agentNow a)

/--
While the callbacks of a cancelled request run, nothing joins the queue, its place
is not handed over, no inner cancellation erases from the middle of the queue, the
same place is not cancelled again, and no callback throws.
-/
def KeepsQueues (config : Config) (label : Label) : Prop :=
  let w := config.state
  (∀ p r error, Cancels w label p r error → ¬ Misses config p r) ∧
    match label with
    | .tick =>
        ∀ p key ticket generation rest,
          config.stack = .cancelReturn p key ticket generation :: rest →
          (∃ other, (p, key, other) ∈ cancellations rest) →
          ∀ front place back,
            w.queueOf p key = front ++ place :: back →
            place.ticket = ticket →
            front = [] ∨ back = []
    | .throw =>
        ∀ frame rest,
          config.stack = frame :: rest →
          cancellations (machine.unwind rest) = cancellations rest
    | .input (.poolRequest p r) => ¬ JoinsCancelled config w p r
    | .input (.agentRequest a r contextUri topLevel) =>
        ¬ JoinsCancelled config (w.agentOffers a r contextUri topLevel)
          (w.agents a).pool r
    | .input (.cancel r _) =>
        ∀ c, (w.requests r).client = some c → ¬ TakesCancelled config c
    | .input (.clientCancel c _) => ¬ TakesCancelled config c
    | _ => True

/-! ## Valid iterators -/

/-- The iterator to a place of a queue is valid. -/
def Sound
    (w : World)
    (p : Nat)
    (key : NetLoc)
    (ticket generation : Nat) :
    Prop :=
  ∃ entry ∈ (w.pools p).clients key,
    entry.generation = generation ∧ ticket ∈ entry.queue.map Place.ticket

section

variable {w next : World} {p : Nat} {key : NetLoc} {ticket generation : Nat}

theorem Sound.congr
    (sound : Sound w p key ticket generation)
    (clients : ∀ q, (next.pools q).clients = (w.pools q).clients) :
    Sound next p key ticket generation := by
  unfold Sound
  rw [clients]
  exact sound

theorem Sound.tunes
    (sound : Sound w p key ticket generation)
    (tunes : Tunes w next) :
    Sound next p key ticket generation :=
  sound.congr fun q => by rw [tunes.pools]

theorem Sound.apart
    {c r : Nat}
    (sound : Sound w p key ticket generation)
    (apart : Apart w c r next) :
    Sound next p key ticket generation :=
  sound.congr fun q => by rw [apart.pools]

theorem Sound.setEntry
    {q : Nat}
    {other : NetLoc}
    {entry : NetLocList}
    (sound : Sound w p key ticket generation)
    (keeps :
      q = p →
      other = key →
      entry.generation = generation ∧
        ticket ∈ entry.queue.map Place.ticket) :
    Sound (w.setEntry q other (some entry)) p key ticket generation := by
  unfold Sound
  rw [setEntry_clients]
  split
  · rename_i same
    exact ⟨entry, rfl, keeps same.1.symm same.2.symm⟩
  · exact sound

/-- The entry that a valid iterator belongs to. -/
theorem Sound.entry
    {entry : NetLocList}
    (sound : Sound w p key ticket generation)
    (present : (w.pools p).clients key = some entry) :
    entry.generation = generation ∧
      ticket ∈ entry.queue.map Place.ticket := by
  obtain ⟨other, isOther, valid⟩ := sound
  rw [Option.mem_def, present] at isOther
  cases isOther
  exact valid

/-- The first request leaves its queue, and it is another one. -/
theorem Sound.popped
    {q : Nat}
    {other : NetLoc}
    {entry : NetLocList}
    {place : Place}
    {rest : List Place}
    (sound : Sound w p key ticket generation)
    (present : (w.pools q).clients other = some entry)
    (queue : entry.queue = place :: rest)
    (different : q = p → other = key → place.ticket ≠ ticket) :
    Sound (w.setEntry q other (some { entry with queue := rest })) p key ticket
      generation := by
  refine sound.setEntry fun samePool sameKey => ?_
  have isOther := different samePool sameKey
  subst samePool sameKey
  obtain ⟨same, member⟩ := sound.entry present
  rw [queue, List.map_cons, List.mem_cons] at member
  exact ⟨same, member.resolve_left fun isFirst => isOther isFirst.symm⟩

/-- The request at the front of a queue is another one. -/
def OtherFirst
    (w : World)
    (q : Nat)
    (other : NetLoc)
    (p : Nat)
    (key : NetLoc)
    (ticket : Nat) :
    Prop :=
  ∀ place rest,
    w.queueOf q other = place :: rest →
    q = p →
    other = key →
    place.ticket ≠ ticket

theorem Sound.putsBack
    {q c : Nat}
    (sound : Sound w p key ticket generation)
    (first : OtherFirst w q (w.clients c).netloc p key ticket)
    (putsBack : PutsBack w q c next) :
    Sound next p key ticket generation := by
  cases putsBack with
  | starts present queue started =>
      refine (sound.popped present queue ?_).apart started.toApart
      exact first _ _ (by rw [queueOf_some present, queue])
  | frees present queue busy =>
      refine sound.setEntry fun samePool sameKey => ?_
      subst samePool sameKey
      have valid := sound.entry present
      exact valid

theorem Sound.refusesNext
    {q c : Nat}
    (sound : Sound w p key ticket generation)
    (first : OtherFirst w q (w.clients c).netloc p key ticket)
    (refuses : RefusesNext w q c next) :
    Sound next p key ticket generation := by
  obtain ⟨entry, place, rest, present, queue, refused⟩ := refuses
  refine (sound.popped present queue ?_).apart refused.toApart
  exact first _ _ (by rw [queueOf_some present, queue])

theorem Sound.places
    {q c : Nat}
    {other : NetLoc}
    (sound : Sound w p key ticket generation)
    (places : Places w q other c next) :
    Sound next p key ticket generation := by
  cases places with
  | creates found =>
      refine Sound.setEntry sound fun samePool sameKey => ?_
      subst samePool sameKey
      rcases found with ⟨absent, _⟩ | ⟨present, _, _⟩
      · obtain ⟨entry, isEntry, _⟩ := sound
        rw [Option.mem_def, absent] at isEntry
        cases isEntry
      · have valid := sound.entry present
        exact valid
  | reuses present isFree =>
      refine sound.setEntry fun samePool sameKey => ?_
      subst samePool sameKey
      have valid := sound.entry present
      exact valid

theorem Sound.pooled
    {q r : Nat}
    (sound : Sound w p key ticket generation)
    (elsewhere : w.route q (w.netloc r) = .queue → ¬ (q = p ∧ w.netloc r = key))
    (pooled : Pooled w q r next) :
    Sound next p key ticket generation := by
  cases pooled with
  | starts places started =>
      exact (sound.places places).apart started.toApart
  | queues present noneFree full =>
      refine Sound.congr (sound.setEntry fun samePool sameKey => ?_) fun _ => rfl
      refine (elsewhere ?_ ⟨samePool, sameKey⟩).elim
      simp [route, firstFree, present, noneFree, Nat.not_lt.mpr full]

theorem Sound.poolRefuses
    {q r : Nat}
    (sound : Sound w p key ticket generation)
    (refuses : PoolRefuses w q r next) :
    Sound next p key ticket generation := by
  cases refuses with
  | early exception =>
      exact sound.congr fun _ => rfl
  | late isPooled places refused =>
      subst isPooled
      have owned :
          Sound (w.setRequest r { w.requests r with pool := some q }) p key
            ticket generation :=
        sound.congr fun _ => rfl
      exact (owned.places places).apart refused.toApart

theorem OtherFirst.congr
    {q : Nat}
    {other : NetLoc}
    (first : OtherFirst w q other p key ticket)
    (queue : ∀ q other, next.queueOf q other = w.queueOf q other) :
    OtherFirst next q other p key ticket := by
  unfold OtherFirst
  rw [queue]
  exact first

/-- A client whose request ends takes the first one of its queue. -/
theorem Sound.ends
    {c : Nat}
    (error : Option ErrorCode)
    (sound : Sound w p key ticket generation)
    (first :
      ∀ q,
        (w.clients c).pool = some q →
        OtherFirst w q (w.clients c).netloc p key ticket) :
    (w.cancel c error).Holds (fun next => Sound next p key ticket generation)
      (fun _ => True) := by
  cases active : (w.clients c).request with
  | none =>
      unfold cancel
      rw [if_pos (by simp [active])]
      exact sound
  | some r =>
      have left :
          ∀ {middle after : World},
            Tunes w middle →
            Tunes (middle.detached c) after →
            Sound after p key ticket generation ∧
              ∀ q,
                (after.clients c).pool = some q →
                OtherFirst after q (after.clients c).netloc p key ticket := by
        intro middle after tunes leaves
        have queue :
            ∀ q other, after.queueOf q other = w.queueOf q other := by
          refine queueOf_congr ?_
          rw [leaves.pools]
          exact tunes.pools
        have netloc : (after.clients c).netloc = (w.clients c).netloc := by
          rw [leaves.netloc, ← tunes.netloc]
          simp [World.detached, World.setClient]
        have pool : (after.clients c).pool = (w.clients c).pool := by
          rw [leaves.pool, ← tunes.pool]
          simp [World.detached, World.setClient]
        refine ⟨?_, fun q inPool => ?_⟩
        · refine sound.congr fun q => ?_
          rw [leaves.pools]
          exact congrArg (fun pools => (pools q).clients) tunes.pools
        · rw [pool] at inPool
          rw [netloc]
          exact (first q inPool).congr queue
      refine ((cancel_ends error active).imp ?_ ?_).holds
      · rintro next ⟨middle, tunes, _, after, released, leaves, releases, rfl⟩
        obtain ⟨kept, others⟩ := left tunes leaves
        cases releases with
        | alone _ =>
            exact kept.congr fun _ => rfl
        | back inPool putsBack =>
            exact Sound.congr (kept.putsBack (others _ inPool) putsBack)
              fun _ => rfl
      · rintro next ⟨middle, tunes, _, after, q, leaves, inPool, refuses⟩
        obtain ⟨kept, others⟩ := left tunes leaves
        exact kept.refusesNext (others q inPool) refuses

end

/-! ## What a piece of code leaves to be executed -/

/-- The code does not call `Pool::cancel_request`. -/
def Plain (step : Step) : Prop :=
  ∀ next frames, step = .next next frames → cancellations frames = []

theorem Plain.next
    {w : World}
    {frames : List Frame}
    (none : cancellations frames = []) :
    Plain (.next w frames) := by
  rintro after all ⟨⟩
  exact none

theorem Plain.fault {reason : Fault} : Plain (.fault reason) := by
  rintro after all ⟨⟩

theorem Plain.before
    {straight : Straight}
    {second : World → Step}
    (plain : ∀ w, Plain (second w)) :
    Plain (straight.before second) := by
  intro after all executed
  obtain ⟨middle, _, goesOn⟩ := Straight.before_next executed
  exact plain middle after all goesOn

theorem Plain.andFrames
    {step : Step}
    {frames : List Frame}
    (plain : Plain step)
    (none : cancellations frames = []) :
    Plain (ClientSide.andFrames step frames) := by
  intro after all executed
  obtain ⟨first, isNext, rfl⟩ := andFrames_next executed
  have noneFirst := plain after first isNext
  unfold cancellations at none noneFirst ⊢
  rw [List.filterMap_append, none, noneFirst, List.append_nil]

theorem finishRequest_plain (w : World) (c : Nat) (error : Option ErrorCode) :
    Plain (w.finishRequest c error) := by
  unfold finishRequest
  dsimp only
  split
  · exact Plain.fault
  · split
    · exact Plain.fault
    · exact Plain.before fun _ => Plain.next rfl

theorem cancel_plain (w : World) (c : Nat) (error : Option ErrorCode) :
    Plain (w.cancel c error) := by
  unfold cancel
  dsimp only
  split
  · exact Plain.next rfl
  · exact finishRequest_plain _ c error

theorem analyzeRequest_plain (w : World) (c : Nat) :
    Plain (w.analyzeRequest c) := by
  unfold analyzeRequest
  dsimp only
  split
  · exact Plain.fault
  · exact Plain.fault
  · split
    · exact Plain.next rfl
    · split
      · split
        · exact cancel_plain w c _
        · split
          · exact cancel_plain _ c _
          · split
            · exact cancel_plain _ c _
            · exact Plain.next rfl
      · exact finishRequest_plain w c none

theorem redirected_plain (w : World) (c : Nat) : Plain (w.redirected c) := by
  unfold redirected
  dsimp only
  split
  · exact Plain.next rfl
  · split
    · exact Plain.fault
    · exact Plain.fault
    · exact Plain.before fun _ => Plain.next rfl

theorem receivePart_plain (w : World) (c : Nat) (response : Response) :
    Plain (w.receivePart c response) := by
  unfold receivePart
  split
  · exact Plain.next rfl
  · split
    · exact Plain.fault
    · split <;> exact Plain.next rfl

theorem onReadLoop_plain (w : World) (c buffer : Nat) (buf : List Parsed) :
    Plain (w.onReadLoop c buffer buf) := by
  cases buf with
  | nil =>
      exact Plain.next rfl
  | cons result rest =>
      simp only [onReadLoop]
      split
      · exact Plain.next rfl
      · cases result with
        | error error _ =>
            exact cancel_plain _ c _
        | headers =>
            exact Plain.next rfl
        | body _ =>
            exact receivePart_plain _ c _
        | done _ =>
            exact Plain.andFrames (analyzeRequest_plain _ c) rfl

theorem onEof_plain
    (w : World)
    (c : Nat)
    (error : Option ErrorCode)
    (response : Response) :
    Plain (w.onEof c error response) := by
  unfold onEof
  dsimp only
  split
  · exact Plain.next rfl
  · exact Plain.fault
  · split
    · exact cancel_plain _ c _
    · exact analyzeRequest_plain _ c

theorem formFileComplete_plain
    (w : World)
    (c : Nat)
    (error : Option ErrorCode) :
    Plain (w.formFileComplete c error) := by
  unfold formFileComplete
  split
  · exact finishRequest_plain w c _
  · exact Plain.before fun _ => Plain.next rfl

theorem code_plain (w : World) (frame : Frame) : Plain (code frame w) := by
  cases frame with
  | callback callback =>
      exact Plain.next rfl
  | fire callback =>
      refine Plain.next ?_
      unfold cancellations
      rw [List.filterMap_eq_nil_iff]
      intro frame isListener
      obtain ⟨listener, _, rfl⟩ := List.mem_map.mp isListener
      cases listener with
      | application =>
          rfl
      | agent a contextUri topLevel =>
          cases callback <;> rfl
  | agentResponse a r response error =>
      exact Plain.next rfl
  | agentRedirect a contextUri topLevel c context =>
      obtain ⟨reason, _, faults⟩ | ⟨response, r, _, _, acts⟩ :=
        code_agentRedirect w a contextUri topLevel c context
      · rw [faults]
        exact Plain.fault
      · rw [acts]
        exact Plain.next rfl
  | onRead c buffer buf =>
      exact onReadLoop_plain w c buffer buf
  | continued c =>
      exact Plain.next rfl
  | redirected c =>
      exact redirected_plain w c
  | redirectCatch c =>
      exact Plain.andFrames (cancel_plain _ c _) rfl
  | rethrow =>
      rintro after all ⟨⟩
  | cancelReturn p key ticket generation =>
      simp only [code, cancelReturn]
      split
      · exact Plain.fault
      · split
        · exact Plain.next rfl
        · exact Plain.fault

/-! ## The invariant -/

/-- Callbacks and what they may push. -/
def isLight : Frame → Bool
  | .callback _ => true
  | .fire _ => true
  | .agentResponse _ _ _ _ => true
  | .agentRedirect _ _ _ _ _ => true
  | .cancelReturn _ _ _ _ => true
  | _ => false

/-- Above a place that is to be erased there are only callbacks. -/
def Layered : List Frame → Prop
  | [] => True
  | frame :: rest =>
      (isLight frame = true ∨ cancellations rest = []) ∧ Layered rest

/-- The iterators of the cancellations that have begun are valid. -/
structure Recalling (w : World) (stack : List Frame) : Prop where
  sound :
    ∀ p key ticket generation,
      .cancelReturn p key ticket generation ∈ stack →
      Sound w p key ticket generation
  once : (cancellations stack).Nodup
  layered : Layered stack

theorem cancellations_append (first second : List Frame) :
    cancellations (first ++ second) =
      cancellations first ++ cancellations second :=
  List.filterMap_append

theorem mem_cancellations
    {p : Nat}
    {key : NetLoc}
    {ticket : Nat}
    {stack : List Frame} :
    (p, key, ticket) ∈ cancellations stack ↔
      ∃ generation, .cancelReturn p key ticket generation ∈ stack := by
  unfold cancellations
  rw [List.mem_filterMap]
  constructor
  · rintro ⟨frame, member, isMark⟩
    cases frame with
    | cancelReturn q other place generation =>
        cases isMark
        exact ⟨generation, member⟩
    | _ =>
        cases isMark
  · rintro ⟨generation, member⟩
    exact ⟨_, member, rfl⟩

theorem not_mem_of_none
    {stack : List Frame}
    (none : cancellations stack = [])
    (p : Nat)
    (key : NetLoc)
    (ticket generation : Nat) :
    .cancelReturn p key ticket generation ∉ stack := by
  intro member
  have isMark := mem_cancellations.mpr ⟨generation, member⟩
  rw [none] at isMark
  cases isMark

theorem layered_of_none
    {stack : List Frame}
    (none : cancellations stack = []) :
    Layered stack := by
  induction stack with
  | nil =>
      trivial
  | cons frame rest inductionHypothesis =>
      have below : cancellations rest = [] := by
        have whole := cancellations_append [frame] rest
        rw [List.singleton_append, none] at whole
        exact (List.append_eq_nil_iff.mp whole.symm).2
      exact ⟨Or.inr below, inductionHypothesis below⟩

theorem Layered.append
    {frames rest : List Frame}
    (light : ∀ frame ∈ frames, isLight frame = true)
    (layered : Layered rest) :
    Layered (frames ++ rest) := by
  induction frames with
  | nil =>
      exact layered
  | cons frame others inductionHypothesis =>
      exact ⟨Or.inl (light frame List.mem_cons_self),
        inductionHypothesis fun other member =>
          light other (List.mem_cons_of_mem _ member)⟩

theorem Recalling.of_none
    {stack : List Frame}
    (w : World)
    (none : cancellations stack = []) :
    Recalling w stack where
  sound p key ticket generation member :=
    (not_mem_of_none none p key ticket generation member).elim
  once := by
    rw [none]
    exact List.nodup_nil
  layered := layered_of_none none

theorem mem_unwind
    {frame : Frame}
    {stack : List Frame}
    (marks : (cancellation frame).isSome)
    (member : frame ∈ machine.unwind stack) :
    frame ∈ stack := by
  induction stack with
  | nil =>
      exact member
  | cons top rest inductionHypothesis =>
      unfold CallMachine.Machine.unwind at member
      split at member
      · exact member
      · cases top with
        | redirected c =>
            rcases List.mem_append.mp member with caught | below
            · rw [List.mem_singleton] at caught
              subst caught
              cases marks
            · exact List.mem_cons_of_mem _ below
        | _ =>
            exact List.mem_cons_of_mem _ (inductionHypothesis member)

theorem Layered.unwind
    {stack : List Frame}
    (layered : Layered stack) :
    Layered (machine.unwind stack) := by
  induction stack with
  | nil =>
      exact layered
  | cons top rest inductionHypothesis =>
      unfold CallMachine.Machine.unwind
      split
      · exact layered
      · cases top with
        | redirected c =>
            exact ⟨Or.inr (layered.1.resolve_left (by simp [isLight])), layered.2⟩
        | _ =>
            exact inductionHypothesis layered.2

/-- No cancellation is left after unwinding where there was none. -/
theorem unwind_none
    {stack : List Frame}
    (none : cancellations stack = []) :
    cancellations (machine.unwind stack) = [] := by
  unfold cancellations
  rw [List.filterMap_eq_nil_iff]
  intro frame member
  cases isMark : cancellation frame with
  | none =>
      rfl
  | some mark =>
      have below := mem_unwind (by simp [isMark]) member
      unfold cancellations at none
      rw [← isMark]
      exact List.filterMap_eq_nil_iff.mp none frame below

/-- Frames are pushed, or taken off, and the lists keep the iterators valid. -/
theorem Recalling.push
    {w next : World}
    {frames stack : List Frame}
    (recalling : Recalling w stack)
    (plain : cancellations frames = [])
    (light : ∀ frame ∈ frames, isLight frame = true)
    (sound :
      ∀ p key ticket generation,
        .cancelReturn p key ticket generation ∈ stack →
        Sound w p key ticket generation →
        Sound next p key ticket generation) :
    Recalling next (frames ++ stack) where
  sound p key ticket generation member := by
    rcases List.mem_append.mp member with pushed | old
    · exact (not_mem_of_none plain p key ticket generation pushed).elim
    · exact sound p key ticket generation old
        (recalling.sound p key ticket generation old)
  once := by
    rw [cancellations_append, plain]
    exact recalling.once
  layered := recalling.layered.append light

theorem Recalling.below
    {w : World}
    {frame : Frame}
    {rest : List Frame}
    (recalling : Recalling w (frame :: rest)) :
    Recalling w rest where
  sound p key ticket generation member :=
    recalling.sound p key ticket generation (List.mem_cons_of_mem _ member)
  once := by
    have whole := recalling.once
    rw [← List.singleton_append, cancellations_append] at whole
    exact whole.of_append_right
  layered := recalling.layered.2

/-! ## Returning -/

/-- The place that an iterator points to, and what is before and after it. -/
theorem split_at_ticket
    {queue : List Place}
    {ticket : Nat}
    (member : ticket ∈ queue.map Place.ticket) :
    ∃ front place back,
      queue = front ++ place :: back ∧
        place.ticket = ticket ∧
        queue.findIdx (fun place => place.ticket == ticket) = front.length ∧
        queue.eraseIdx (queue.findIdx fun place => place.ticket == ticket) =
          front ++ back := by
  obtain ⟨found, isFound, isTicket⟩ := List.mem_map.mp member
  have inside :
      queue.findIdx (fun place => place.ticket == ticket) < queue.length :=
    List.findIdx_lt_length_of_exists ⟨found, isFound, by simp [isTicket]⟩
  have isPlace := List.findIdx_getElem (w := inside)
  generalize queue.findIdx (fun place => place.ticket == ticket) = index
    at inside isPlace ⊢
  refine ⟨queue.take index, queue[index], queue.drop (index + 1), ?_,
    by simpa using isPlace, by simp; omega, ?_⟩
  · rw [← List.drop_eq_getElem_cons inside, List.take_append_drop]
  · exact List.eraseIdx_eq_take_drop_succ queue index

/-- The return of a cancellation erases its place, and other iterators stay valid. -/
theorem Recalling.returns
    {w : World}
    {p : Nat}
    {key : NetLoc}
    {ticket generation : Nat}
    {rest : List Frame}
    (recalling : Recalling w (.cancelReturn p key ticket generation :: rest))
    (atEdge :
      (∃ other, (p, key, other) ∈ cancellations rest) →
      ∀ front place back,
        w.queueOf p key = front ++ place :: back →
        place.ticket = ticket →
        front = [] ∨ back = []) :
    ∃ next,
      w.cancelReturn p key ticket generation = .next next [] ∧
        ErasesPlace ⟨w, .cancelReturn p key ticket generation :: rest, none⟩
          ⟨next, rest, none⟩ p key ticket ∧
        Recalling next rest := by
  obtain ⟨entry, present, same, member⟩ :=
    recalling.sound p key ticket generation List.mem_cons_self
  rw [Option.mem_def] at present
  obtain ⟨front, place, back, isQueue, isTicket, index, erased⟩ :=
    split_at_ticket member
  have queue : w.queueOf p key = front ++ place :: back := by
    rw [queueOf_some present, isQueue]
  have inside : front.length < entry.queue.length := by
    rw [isQueue]
    simp
  refine ⟨_, by
    unfold World.cancelReturn
    simp only [present, index, same, inside, and_self, if_true]
    rfl, ⟨front, place, back, queue, isTicket, ?_, rfl, ?_⟩, ?_⟩
  · rw [queueOf_setEntry, if_pos ⟨rfl, rfl⟩, ← index, erased]
  · intro q other different
    rw [queueOf_setEntry, if_neg different]
  · have once := recalling.once
    rw [← List.singleton_append, cancellations_append] at once
    refine { recalling.below with sound := ?_ }
    intro q other mark old isPending
    refine (recalling.below.sound q other mark old isPending).setEntry ?_
    rintro rfl rfl
    have sound := recalling.below.sound _ _ mark old isPending
    obtain ⟨isOld, isWaiting⟩ := sound.entry present
    have isMark := mem_cancellations.mpr ⟨old, isPending⟩
    have edge := atEdge ⟨mark, isMark⟩ front place back queue isTicket
    have different : mark ≠ place.ticket := by
      rintro rfl
      have apart := List.disjoint_of_nodup_append once
      exact apart (by simp [cancellations, cancellation, isTicket]) isMark
    constructor
    · rw [if_neg, Nat.add_zero]
      · exact same.symm.trans isOld
      · rintro ⟨notFirst, notLast⟩
        rcases edge with rfl | rfl
        · exact notFirst.ne' rfl
        · rw [isQueue] at notLast
          simp at notLast
    · simp only
      rw [← index, erased]
      rw [isQueue] at isWaiting
      simp only [List.map_append, List.map_cons, List.mem_append,
        List.mem_cons] at isWaiting ⊢
      rcases isWaiting with before | isPlace | after
      · exact Or.inl before
      · exact (different isPlace).elim
      · exact Or.inr after

/-! ## Entering -/

/-- The place that is found for a request is not being cancelled already. -/
theorem found_of_not_misses
    {config : Config}
    {p r : Nat}
    (found : ¬ Misses config p r)
    (waits : config.state.WaitsIn p r) :
    ∃ place,
      (config.state.queueOf p (config.state.netloc r)).find?
          (fun place => place.req == r) = some place ∧
        (p, config.state.netloc r, place.ticket) ∉
          cancellations config.stack := by
  by_contra missed
  refine found ⟨waits, fun place isPlace => ?_⟩
  by_contra notMarked
  exact missed ⟨place, isPlace, notMarked⟩

/-- `Pool::cancel_request` finds the request, wherever its timer stands. -/
theorem Recalling.enters
    {w timed : World}
    {stack : List Frame}
    {p r : Nat}
    (error : Option ErrorCode)
    (recalling : Recalling w stack)
    (found : ¬ Misses ⟨w, stack, none⟩ p r)
    (waits : w.WaitsIn p r)
    (pools : timed.pools = w.pools)
    (netloc : timed.netloc r = w.netloc r)
    (ends : timed.ending r = w.ending r) :
    ∃ frames,
      timed.cancelRequest p r error = .next (w.ending r) frames ∧
        FindsPlace ⟨w, stack, none⟩ ⟨w.ending r, frames ++ stack, none⟩ p r error ∧
        Recalling (w.ending r) (frames ++ stack) := by
  obtain ⟨place, isFirst, notMarked⟩ := found_of_not_misses found waits
  simp only at isFirst notMarked
  cases present : (w.pools p).clients (w.netloc r) with
  | none =>
      simp [queueOf, present] at isFirst
  | some entry =>
      rw [queueOf_some present] at isFirst
      have member := List.mem_of_find?_eq_some isFirst
      have isRequest : place.req = r := by
        simpa using List.find?_some isFirst
      obtain ⟨front, back, split⟩ := List.append_of_mem member
      refine ⟨[.fire (.partialEvent r {} error), .fire (.responseEvent r {} error),
        .cancelReturn p (w.netloc r) place.ticket entry.generation], ?_,
        ⟨w.netloc r, front, place, back, entry.generation, ?_, isRequest,
          notMarked, rfl⟩, ?_⟩
      · unfold cancelRequest
        simp only [netloc, pools, present, isFirst]
        rw [← ends]
        rfl
      · rw [queueOf_some present, split]
      · have kept :
            ∀ q key ticket generation,
              .cancelReturn q key ticket generation ∈ stack →
              Sound w q key ticket generation →
              Sound (w.ending r) q key ticket generation :=
          fun q key ticket generation _ sound => sound.congr fun _ => rfl
        refine
          { sound := ?_, once := ?_
            layered := ⟨Or.inl rfl, Or.inl rfl, Or.inl rfl, recalling.layered⟩ }
        · intro q key ticket generation isPending
          simp only [List.cons_append, List.nil_append, List.mem_cons,
            reduceCtorEq, false_or, Frame.cancelReturn.injEq] at isPending
          rcases isPending with ⟨rfl, rfl, rfl, rfl⟩ | old
          · exact ⟨entry, present, rfl, List.mem_map_of_mem member⟩
          · exact kept q key ticket generation old
              (recalling.sound q key ticket generation old)
        · rw [cancellations_append]
          refine List.nodup_cons.mpr ⟨notMarked, recalling.once⟩

/-- A request that waits nowhere in the pool cannot be cancelled there. -/
theorem cancelRequest_fault
    {w timed : World}
    {p r : Nat}
    (error : Option ErrorCode)
    (absent : ¬ w.WaitsIn p r)
    (pools : timed.pools = w.pools) :
    ∃ reason, timed.cancelRequest p r error = .fault reason := by
  unfold cancelRequest
  dsimp only
  split
  · exact ⟨_, rfl⟩
  · rename_i entry present
    split
    · exact ⟨_, rfl⟩
    · rename_i place found
      refine (absent ⟨timed.netloc r, entry, ?_, ?_⟩).elim
      · rw [← pools]
        exact present
      · have isRequest : place.req = r := by
          simpa using List.find?_some found
        exact List.mem_map.mpr
          ⟨place, List.mem_of_find?_eq_some found, isRequest⟩

/-! ## Other calls -/

/-- What the code does to the lists leaves the pending iterators valid. -/
def Spares (w : World) (stack : List Frame) (next : World) : Prop :=
  ∀ p key ticket generation,
    .cancelReturn p key ticket generation ∈ stack →
    Sound w p key ticket generation →
    Sound next p key ticket generation

theorem Spares.congr
    {w next : World}
    {stack : List Frame}
    (clients : ∀ q, (next.pools q).clients = (w.pools q).clients) :
    Spares w stack next :=
  fun _ _ _ _ _ sound => sound.congr clients

theorem Spares.tunes
    {w next : World}
    {stack : List Frame}
    (tunes : Tunes w next) :
    Spares w stack next :=
  Spares.congr fun q => by rw [tunes.pools]

/-- A client that ends its request does not take one that is being cancelled. -/
theorem cancel_spares
    {w : World}
    {stack : List Frame}
    {c : Nat}
    (error : Option ErrorCode)
    (free : ¬ TakesCancelled ⟨w, stack, none⟩ c) :
    (w.cancel c error).Holds (Spares w stack) (fun _ => True) := by
  have spares :
      ∀ p key ticket generation,
        .cancelReturn p key ticket generation ∈ stack →
        Sound w p key ticket generation →
        (w.cancel c error).Holds
          (fun next => Sound next p key ticket generation) (fun _ => True) := by
    intro p key ticket generation isPending sound
    refine sound.ends error fun q inPool place rest queue samePool sameKey => ?_
    rintro rfl
    subst samePool sameKey
    exact free ⟨q, place, rest, inPool, queue,
      mem_cancellations.mpr ⟨generation, isPending⟩⟩
  cases executed : w.cancel c error with
  | fault reason =>
      trivial
  | next next frames | raise next =>
      intro p key ticket generation isPending sound
      have holds := spares p key ticket generation isPending sound
      rw [executed] at holds
      exact holds

theorem accepted_spares
    {w : World}
    {stack : List Frame}
    {straight : Straight}
    (pool : Option Nat)
    (loop r : Nat)
    (post : straight.Post (Spares w stack) (Spares w stack) (fun _ => True)) :
    (straight.before (acceptedOn pool loop r)).Holds (Spares w stack)
      (fun _ => True) :=
  Straight.Post.before post
    fun _ spares p key ticket generation isPending sound =>
      (spares p key ticket generation isPending sound).congr fun _ => rfl

theorem clientRequest_spares
    (w : World)
    (stack : List Frame)
    (c r : Nat) :
    (w.clientRequest c r).Post (Spares w stack) (Spares w stack)
      (fun _ => True) :=
  (clientRequest_post w c r).imp
    (fun _ started => Spares.congr fun q => by rw [started.pools])
    (fun _ refused => Spares.congr fun q => by rw [refused.pools])
    (fun _ _ => trivial)

theorem poolRequest_spares
    {w offered : World}
    {stack : List Frame}
    {p r : Nat}
    (tunes : Tunes w offered)
    (free : ¬ JoinsCancelled ⟨w, stack, none⟩ offered p r) :
    (offered.poolRequest p r).Post (Spares w stack) (Spares w stack)
      (fun _ => True) := by
  have owned :
      (offered.setRequest r { offered.requests r with pool := some p }).netloc r
        = offered.netloc r := by
    simp [World.netloc, setRequest]
  refine (poolRequest_post offered p r).imp ?_ ?_ (fun _ _ => trivial)
  · rintro next ⟨_, pooled⟩ q key ticket generation isPending sound
    have kept :
        Sound (offered.setRequest r { offered.requests r with pool := some p }) q
          key ticket generation :=
      (sound.tunes tunes).congr fun _ => rfl
    refine kept.pooled ?_ pooled
    rw [owned]
    rintro isQueue ⟨rfl, rfl⟩
    exact free ⟨isQueue, ticket, mem_cancellations.mpr ⟨generation, isPending⟩⟩
  · intro next refused q key ticket generation _ sound
    exact (sound.tunes tunes).poolRefuses (.of_post refused)

theorem agentRequest_spares
    {w : World}
    {stack : List Frame}
    {a r : Nat}
    {contextUri : Uri}
    {topLevel : Bool}
    (free :
      ¬ JoinsCancelled ⟨w, stack, none⟩ (w.agentOffers a r contextUri topLevel)
        (w.agents a).pool r) :
    (w.agentRequest a r contextUri topLevel).Post (Spares w stack)
      (Spares w stack) (fun _ => True) := by
  unfold agentRequest
  dsimp only
  split
  · trivial
  · refine poolRequest_spares ?_ free
    refine Tunes.trans ?_ (Tunes.inject _ a r contextUri topLevel _)
    exact Tunes.setRequest w r _ rfl rfl rfl rfl (.refl _)

/-- What a call from a callback leaves to be executed, and does to the lists. -/
structure Harmless (w : World) (stack : List Frame) (outcome : Step) : Prop where
  plain : Plain outcome
  light :
    ∀ next frames,
      outcome = .next next frames →
      ∀ frame ∈ frames, isLight frame = true
  spares : outcome.Holds (Spares w stack) (fun _ => True)

theorem cancel_light
    {w next : World}
    {c : Nat}
    {error : Option ErrorCode}
    {frames : List Frame}
    (executed : w.cancel c error = .next next frames) :
    ∀ frame ∈ frames, isLight frame = true := by
  unfold cancel at executed
  dsimp only at executed
  split at executed
  · cases executed
    simp
  · unfold finishRequest at executed
    dsimp only at executed
    split at executed
    · cases executed
    · split at executed
      · cases executed
      · obtain ⟨middle, _, goesOn⟩ := Straight.before_next executed
        cases goesOn
        simp [isLight]

theorem Harmless.cancel
    {w : World}
    {stack : List Frame}
    {c : Nat}
    (error : Option ErrorCode)
    (free : ¬ TakesCancelled ⟨w, stack, none⟩ c) :
    Harmless w stack (w.cancel c error) where
  plain := cancel_plain w c error
  light _ _ := cancel_light
  spares := cancel_spares error free

theorem Harmless.next
    {w next : World}
    {stack : List Frame}
    (spares : Spares w stack next) :
    Harmless w stack (.next next []) where
  plain := Plain.next rfl
  light := by
    rintro after frames ⟨⟩
    simp
  spares := spares

theorem Harmless.accepted
    {w : World}
    {stack : List Frame}
    {straight : Straight}
    (pool : Option Nat)
    (loop r : Nat)
    (post : straight.Post (Spares w stack) (Spares w stack) (fun _ => True)) :
    Harmless w stack (straight.before (acceptedOn pool loop r)) where
  plain := Plain.before fun _ => Plain.next rfl
  light := by
    intro after frames executed
    obtain ⟨middle, _, goesOn⟩ := Straight.before_next executed
    cases goesOn
    simp
  spares := accepted_spares pool loop r post

theorem Harmless.of_runs
    {w : World}
    {stack : List Frame}
    {outcome : Step}
    (runs : Runs outcome (Tunes w) (Tunes w))
    (none : ∀ next frames, outcome = .next next frames → frames = []) :
    Harmless w stack outcome where
  plain := by
    intro next frames executed
    rw [none next frames executed]
    rfl
  light := by
    intro next frames executed
    simp [none next frames executed]
  spares := (runs.imp (fun _ => Spares.tunes) fun _ => Spares.tunes).holds

theorem requestSend_frames
    {w : World}
    {r : Nat}
    {send : Nat → Step}
    (sends : ∀ c next frames, send c = .next next frames → frames = [])
    (next : World)
    (frames : List Frame)
    (executed : w.requestSend r send = .next next frames) :
    frames = [] := by
  unfold requestSend at executed
  dsimp only at executed
  split at executed
  · cases executed
  · split at executed
    · cases executed
    · split at executed
      · exact sends _ next frames executed
      · cases executed

/-- A call from application code that is not `Pool::cancel_request`. -/
theorem accept_harmless
    {w : World}
    {stack : List Frame}
    {input : Input}
    {top : Frame}
    {outcome : Step}
    (keeps : KeepsQueues ⟨w, stack, none⟩ (.input input))
    (other : ∀ p r error, ¬ Cancels w (.input input) p r error)
    (accepted : accept input (some top) w = some outcome) :
    Harmless w stack outcome := by
  cases input with
  | edit r fields =>
      simp only [accept] at accepted
      split at accepted <;> cases accepted
      exact Harmless.next (Spares.congr fun _ => rfl)
  | listen r =>
      simp only [accept, reduceCtorEq] at accepted
  | newClient loop =>
      cases accepted
      exact Harmless.next (Spares.congr fun _ => rfl)
  | clientRequest c r =>
      simp only [accept] at accepted
      split at accepted <;> cases accepted
      exact Harmless.accepted _ _ r (clientRequest_spares w stack c r)
  | poolRequest p r =>
      cases accepted
      exact Harmless.accepted _ _ r
        (poolRequest_spares (Tunes.refl w) keeps.2)
  | agentRequest a r contextUri topLevel =>
      cases accepted
      exact Harmless.accepted _ _ r (agentRequest_spares keeps.2)
  | cancel r error =>
      cases accepted
      unfold requestCancel
      dsimp only
      split
      · rename_i c linked
        exact Harmless.cancel error (keeps.2 c linked)
      · rename_i p unlinked inPool
        exact (other p r error (.request unlinked inPool)).elim
      · exact Harmless.next fun _ _ _ _ _ => id
  | clientCancel c error =>
      cases accepted
      exact Harmless.cancel error keeps.2
  | sendChunk r data =>
      cases accepted
      refine Harmless.of_runs (sendChunk_tunes w r data)
        (requestSend_frames fun c next frames executed => ?_)
      split at executed <;> cases executed <;> rfl
  | sendFinalChunk r data =>
      cases accepted
      refine Harmless.of_runs (sendFinalChunk_tunes w r data)
        (requestSend_frames fun c next frames executed => ?_)
      cases executed
      rfl
  | maxConnections p value =>
      cases accepted
      refine Harmless.next (Spares.congr fun q => ?_)
      by_cases same : q = p
      · subst same
        simp
      · simp [same]
  | _ =>
      simp only [accept, reduceCtorEq] at accepted

/-- An event of the loop that is not `Pool::cancel_request`. -/
theorem accept_plain
    {w : World}
    {input : Input}
    {outcome : Step}
    (other : ∀ p r error, ¬ Cancels w (.input input) p r error)
    (accepted : accept input none w = some outcome) :
    Plain outcome := by
  cases input with
  | edit r fields =>
      simp only [accept] at accepted
      split at accepted <;> cases accepted
      exact Plain.next rfl
  | listen r =>
      cases accepted
      exact Plain.next rfl
  | newClient loop =>
      cases accepted
      exact Plain.next rfl
  | clientRequest c r =>
      simp only [accept] at accepted
      split at accepted <;> cases accepted
      exact Plain.before fun _ => Plain.next rfl
  | poolRequest p r =>
      cases accepted
      exact Plain.before fun _ => Plain.next rfl
  | agentRequest a r contextUri topLevel =>
      cases accepted
      exact Plain.before fun _ => Plain.next rfl
  | cancel r error =>
      cases accepted
      unfold requestCancel
      dsimp only
      split
      · exact cancel_plain w _ error
      · rename_i p unlinked inPool
        exact (other p r error (.request unlinked inPool)).elim
      · exact Plain.next rfl
  | clientCancel c error =>
      cases accepted
      exact cancel_plain w c error
  | sendChunk r data | sendFinalChunk r data =>
      cases accepted
      intro next frames executed
      have none : frames = [] := by
        refine requestSend_frames (fun c after pushed goesOn => ?_) next frames
          executed
        first
        | split at goesOn <;> cases goesOn <;> rfl
        | cases goesOn; rfl
      rw [none]
      rfl
  | maxConnections p value =>
      cases accepted
      exact Plain.next rfl
  | advance loop milliseconds =>
      cases accepted
      exact Plain.next rfl
  | onConnect c error =>
      simp only [accept] at accepted
      split at accepted
      · cases error with
        | none =>
            cases accepted
            exact Plain.next rfl
        | some error =>
            cases accepted
            exact cancel_plain _ c _
      · cases accepted
  | onWrite c error =>
      simp only [accept] at accepted
      split at accepted
      · cases error with
        | none =>
            cases accepted
            exact Plain.next rfl
        | some error =>
            cases accepted
            exact cancel_plain _ c _
      · cases accepted
  | onRead c buf =>
      simp only [accept] at accepted
      split at accepted <;> cases accepted
      exact Plain.next rfl
  | onReadError c error =>
      simp only [accept] at accepted
      split at accepted <;> cases accepted
      exact cancel_plain w c _
  | onEof c error response =>
      simp only [accept] at accepted
      split at accepted <;> cases accepted
      exact onEof_plain _ c error response
  | onTimer r =>
      simp only [accept] at accepted
      split at accepted
      · cases accepted
      · rename_i timer isTimer
        split at accepted
        · cases accepted
        · split at accepted <;> cases accepted
          unfold fireTimer
          dsimp only
          split
          · rename_i heard
            unfold onTimer
            simp only [setRequest, Function.update_self]
            split
            · exact cancel_plain _ _ _
            · rename_i p unlinked inPool
              exact (other p r _
                (.timer unlinked inPool isTimer heard)).elim
            · exact Plain.next rfl
          · exact Plain.next rfl
  | streamData r item data =>
      simp only [accept] at accepted
      split at accepted <;> cases accepted
      exact Plain.next rfl
  | streamFinish r item error =>
      simp only [accept] at accepted
      split at accepted <;> cases accepted
      exact formFileComplete_plain _ _ error
  | checkInactivity p =>
      simp only [accept] at accepted
      split at accepted <;> cases accepted
      exact Plain.next rfl

/-! ## Runs -/

/-- A step that neither begins nor ends a cancellation. -/
theorem ExactStep.quiet
    {before after : Config}
    {label : Label}
    (noCancel :
      ∀ p r error,
        Cancels before.state label p r error →
        ¬ before.state.WaitsIn p r)
    (noReturn :
      label = .tick →
      ∀ p key ticket generation rest,
        before.stack ≠ .cancelReturn p key ticket generation :: rest)
    (same : cancellations after.stack = cancellations before.stack) :
    ExactStep before label after where
  enters p r error cancels waits := (noCancel p r error cancels waits).elim
  returns p key ticket generation rest isTick isTop :=
    (noReturn isTick p key ticket generation rest isTop).elim
  pending _ _ := same

theorem cancellations_cons
    {frame : Frame}
    (noMark : cancellation frame = none)
    (rest : List Frame) :
    cancellations (frame :: rest) = cancellations rest := by
  unfold cancellations
  rw [List.filterMap_cons_none noMark]

theorem fire_light
    (w : World)
    (callback : Callback) :
    ∀ frame ∈ (w.listeners callback).map (listenerFrame callback),
      isLight frame = true := by
  intro frame isListener
  obtain ⟨listener, _, rfl⟩ := List.mem_map.mp isListener
  cases listener with
  | application =>
      rfl
  | agent a contextUri topLevel =>
      cases callback <;> rfl

/-- What runs above a pending cancellation calls listeners, and changes no list. -/
theorem code_light
    {w : World}
    {frame : Frame}
    (rest : List Frame)
    (light : isLight frame = true)
    (noMark : cancellation frame = none) :
    (∃ reason, code frame w = .fault reason) ∨
      ∃ next frames,
        code frame w = .next next frames ∧
          (∀ frame ∈ frames, isLight frame = true) ∧
          Spares w rest next := by
  cases frame with
  | callback callback =>
      exact Or.inr ⟨w, [], rfl, by simp, fun _ _ _ _ _ => id⟩
  | fire callback =>
      exact Or.inr
        ⟨_, _, rfl, fire_light w callback, Spares.congr fun _ => rfl⟩
  | agentResponse a r response error =>
      refine Or.inr ⟨_, [], rfl, by simp, ?_⟩
      unfold agentResponse
      split
      · exact fun _ _ _ _ _ => id
      · exact Spares.congr fun _ => rfl
  | agentRedirect a contextUri topLevel c context =>
      obtain ⟨reason, _, faults⟩ | ⟨response, r, _, _, acts⟩ :=
        code_agentRedirect w a contextUri topLevel c context
      · exact Or.inl ⟨reason, faults⟩
      · exact Or.inr ⟨_, [], acts, by simp, Spares.congr fun _ => rfl⟩
  | cancelReturn p key ticket generation =>
      cases noMark
  | _ =>
      cases light

/-- The program executes its top frame. -/
theorem Recalling.tick
    {w : World}
    {frame : Frame}
    {rest : List Frame}
    {after : Config}
    (recalling : Recalling w (frame :: rest))
    (keeps : KeepsQueues ⟨w, frame :: rest, none⟩ .tick)
    (isNext :
      after = machine.resume ⟨w, frame :: rest, none⟩ rest (code frame w)) :
    ExactStep ⟨w, frame :: rest, none⟩ .tick after ∧
      Recalling after.state after.stack := by
  have noCancel :
      ∀ p r error, Cancels w .tick p r error → ¬ w.WaitsIn p r := by
    rintro p r error ⟨⟩
  by_cases isReturn : ∃ mark, cancellation frame = some mark
  · obtain ⟨mark, isMark⟩ := isReturn
    cases frame with
    | cancelReturn p key ticket generation =>
        obtain ⟨next, returned, erases, valid⟩ := recalling.returns
          (keeps.2 p key ticket generation rest rfl)
        have isAfter : after = ⟨next, rest, none⟩ := by
          rw [isNext]
          change machine.resume _ rest
            (w.cancelReturn p key ticket generation) = _
          rw [returned]
          rfl
        subst isAfter
        refine ⟨⟨?_, ?_, ?_⟩, valid⟩
        · exact fun p r error cancels waits =>
            (noCancel p r error cancels waits).elim
        · rintro q other mark issued below _ ⟨⟩
          exact ⟨rfl, erases⟩
        · intro _ noReturn
          exact (noReturn p key ticket generation rest rfl rfl).elim
    | _ =>
        cases isMark
  · have noMark : cancellation frame = none := by
      cases isMark : cancellation frame with
      | none =>
          rfl
      | some mark =>
          exact (isReturn ⟨mark, isMark⟩).elim
    have noReturn :
        ∀ p key ticket generation below,
          frame :: rest ≠ .cancelReturn p key ticket generation :: below := by
      rintro p key ticket generation below ⟨⟩
      cases noMark
    have settled :
        cancellations after.stack = cancellations rest →
        ExactStep ⟨w, frame :: rest, none⟩ .tick after := by
      intro same
      exact ExactStep.quiet noCancel (fun _ => noReturn)
        (same.trans (cancellations_cons noMark rest).symm)
    have plain := code_plain w frame
    by_cases noneBelow : cancellations rest = []
    · have none : cancellations after.stack = [] := by
        rw [isNext]
        cases executed : code frame w with
        | next next frames =>
            have noneAbove := plain next frames executed
            change cancellations (frames ++ rest) = []
            rw [cancellations_append, noneAbove, noneBelow, List.append_nil]
        | raise next =>
            exact unwind_none noneBelow
        | fault reason =>
            exact (cancellations_cons noMark rest).trans noneBelow
      exact ⟨settled (none.trans noneBelow.symm), Recalling.of_none _ none⟩
    · have isLight := recalling.layered.1.resolve_right noneBelow
      obtain ⟨reason, faults⟩ | ⟨next, frames, executed, light, spares⟩ :=
        code_light rest isLight noMark
      · have isAfter : after = ⟨w, frame :: rest, some reason⟩ := by
          rw [isNext, faults]
          rfl
        subst isAfter
        exact ⟨settled (cancellations_cons noMark rest), recalling⟩
      · have isAfter : after = ⟨next, frames ++ rest, none⟩ := by
          rw [isNext, executed]
          rfl
        have noneAbove := plain next frames executed
        subst isAfter
        refine ⟨settled ?_, recalling.below.push noneAbove light spares⟩
        rw [cancellations_append, noneAbove, List.nil_append]

/-- The running callback returns. -/
theorem Recalling.ret
    {w : World}
    {frame : Frame}
    {rest : List Frame}
    (recalling : Recalling w (frame :: rest))
    (running : isCallback frame = true) :
    ExactStep ⟨w, frame :: rest, none⟩ .ret ⟨w, rest, none⟩ ∧
      Recalling w rest := by
  have noMark : cancellation frame = none := by
    cases frame with
    | callback callback =>
        rfl
    | _ =>
        cases running
  refine ⟨ExactStep.quiet ?_ (fun isTick => ?_) ?_, recalling.below⟩
  · rintro p r error ⟨⟩
  · cases isTick
  · exact (cancellations_cons noMark rest).symm

/-- The running callback throws. -/
theorem Recalling.throw
    {w : World}
    {frame : Frame}
    {rest : List Frame}
    (recalling : Recalling w (frame :: rest))
    (running : isCallback frame = true)
    (same : cancellations (machine.unwind rest) = cancellations rest) :
    ExactStep ⟨w, frame :: rest, none⟩ .throw ⟨w, machine.unwind rest, none⟩ ∧
      Recalling w (machine.unwind rest) := by
  have noMark : cancellation frame = none := by
    cases frame with
    | callback callback =>
        rfl
    | _ =>
        cases running
  refine ⟨ExactStep.quiet ?_ (fun isTick => ?_) ?_, ?_, ?_, ?_⟩
  · rintro p r error ⟨⟩
  · cases isTick
  · exact same.trans (cancellations_cons noMark rest).symm
  · intro p key ticket generation member
    exact recalling.below.sound p key ticket generation (mem_unwind rfl member)
  · rw [same]
    exact recalling.below.once
  · exact recalling.below.layered.unwind

/-- `Pool::cancel_request` is called, with the timer of the request as it stands. -/
theorem Recalling.cancels
    {w timed : World}
    {stack : List Frame}
    {label : Label}
    {after : Config}
    {p r : Nat}
    {error : Option ErrorCode}
    (recalling : Recalling w stack)
    (keeps : ¬ Misses ⟨w, stack, none⟩ p r)
    (cancels : Cancels w label p r error)
    (isInput : label ≠ .tick)
    (pools : timed.pools = w.pools)
    (netloc : timed.netloc r = w.netloc r)
    (ends : timed.ending r = w.ending r)
    (isNext :
      after =
        machine.resume ⟨w, stack, none⟩ stack (timed.cancelRequest p r error)) :
    ExactStep ⟨w, stack, none⟩ label after ∧
      Recalling after.state after.stack := by
  have unique :
      ∀ q s other,
        Cancels w label q s other → q = p ∧ s = r ∧ other = error := by
    intro q s other cancelled
    cases cancels with
    | request unlinked inPool =>
        cases cancelled with
        | request _ isPool =>
            rw [inPool] at isPool
            exact ⟨(Option.some.inj isPool).symm, rfl, rfl⟩
    | timer unlinked inPool _ _ =>
        cases cancelled with
        | timer _ isPool _ _ =>
            rw [inPool] at isPool
            exact ⟨(Option.some.inj isPool).symm, rfl, rfl⟩
  by_cases waits : w.WaitsIn p r
  · obtain ⟨frames, executed, enters, valid⟩ :=
      recalling.enters error keeps waits pools netloc ends
    have isAfter : after = ⟨w.ending r, frames ++ stack, none⟩ := by
      rw [isNext, executed]
      rfl
    subst isAfter
    refine ⟨⟨?_, ?_, ?_⟩, valid⟩
    · intro q s other cancelled _
      obtain ⟨rfl, rfl, rfl⟩ := unique q s other cancelled
      exact enters
    · intro q key ticket generation rest isTick _
      exact (isInput isTick).elim
    · intro noCancel _
      exact (noCancel p r error cancels).elim
  · obtain ⟨reason, executed⟩ := cancelRequest_fault error waits pools
    have isAfter : after = ⟨w, stack, some reason⟩ := by
      rw [isNext, executed]
      rfl
    subst isAfter
    refine ⟨ExactStep.quiet ?_ (fun isTick => (isInput isTick).elim) rfl,
      recalling⟩
    intro q s other cancelled waiting
    obtain ⟨rfl, rfl, rfl⟩ := unique q s other cancelled
    exact waits waiting

/-- A call that is not `Pool::cancel_request`. -/
theorem Recalling.accepts
    {w : World}
    {stack : List Frame}
    {input : Input}
    {outcome : Step}
    {after : Config}
    (recalling : Recalling w stack)
    (boundary : machine.atBoundary stack = true)
    (keeps : KeepsQueues ⟨w, stack, none⟩ (.input input))
    (other : ∀ p r error, ¬ Cancels w (.input input) p r error)
    (accepted : accept input stack.head? w = some outcome)
    (isNext : after = machine.resume ⟨w, stack, none⟩ stack outcome) :
    ExactStep ⟨w, stack, none⟩ (.input input) after ∧
      Recalling after.state after.stack := by
  have settled :
      cancellations after.stack = cancellations stack →
      ExactStep ⟨w, stack, none⟩ (.input input) after := by
    refine fun same => ExactStep.quiet ?_ (fun isTick => ?_) same
    · exact fun p r error cancels => (other p r error cancels).elim
    · cases isTick
  cases stack with
  | nil =>
      have plain := accept_plain other accepted
      have none : cancellations after.stack = [] := by
        rw [isNext]
        cases outcome with
        | next next frames =>
            change cancellations (frames ++ []) = []
            rw [List.append_nil]
            exact plain next frames rfl
        | raise next | fault reason =>
            rfl
      exact ⟨settled none, Recalling.of_none _ none⟩
  | cons frame rest =>
      have harmless := accept_harmless keeps other accepted
      subst isNext
      cases outcome with
      | next next frames =>
          have plain := harmless.plain next frames rfl
          refine ⟨settled ?_, recalling.push plain (harmless.light next frames rfl)
            harmless.spares⟩
          change cancellations (frames ++ frame :: rest) = _
          rw [cancellations_append, plain, List.nil_append]
      | raise next =>
          have same :
              machine.unwind (frame :: rest) = frame :: rest :=
            CallMachine.Machine.unwind_of_atBoundary boundary
          simp only [CallMachine.Machine.resume, same] at settled ⊢
          refine ⟨settled trivial, ?_⟩
          have none : ∀ frame ∈ ([] : List Frame), isLight frame = true := by
            simp
          have kept : Recalling next ([] ++ frame :: rest) :=
            recalling.push rfl none harmless.spares
          exact kept
      | fault reason =>
          exact ⟨settled rfl, recalling⟩

/-- An entry point is called. -/
theorem Recalling.input
    {w : World}
    {stack : List Frame}
    {input : Input}
    {outcome : Step}
    {after : Config}
    (recalling : Recalling w stack)
    (boundary : machine.atBoundary stack = true)
    (keeps : KeepsQueues ⟨w, stack, none⟩ (.input input))
    (accepted : accept input stack.head? w = some outcome)
    (isNext : after = machine.resume ⟨w, stack, none⟩ stack outcome) :
    ExactStep ⟨w, stack, none⟩ (.input input) after ∧
      Recalling after.state after.stack := by
  by_cases calls : ∃ p r error, Cancels w (.input input) p r error
  swap
  · refine recalling.accepts boundary keeps (fun p r error cancels => ?_) accepted
      isNext
    exact calls ⟨p, r, error, cancels⟩
  obtain ⟨p, r, error, cancels⟩ := calls
  have notMissed := keeps.1 p r error cancels
  cases cancels with
  | request unlinked inPool =>
      cases accepted
      refine recalling.cancels notMissed (.request unlinked inPool) (by simp) rfl
        rfl rfl ?_
      rw [isNext]
      unfold requestCancel
      simp only [unlinked, inPool]
  | timer unlinked inPool isTimer listened =>
      rename_i timer
      generalize stack.head? = top at accepted
      cases top <;> simp only [accept, reduceCtorEq] at accepted
      rw [isTimer] at accepted
      simp only at accepted
      split at accepted
      · cases accepted
      · split at accepted <;> cases accepted
        generalize shape :
          w.setRequest r
            { w.requests r with timer := some { timer with deadline := none } } =
            timed at isNext
        have pools : timed.pools = w.pools := by
          subst shape
          rfl
        have request :
            timed.requests r =
              { w.requests r with
                timer := some { timer with deadline := none } } := by
          subst shape
          simp [setRequest]
        have netloc : timed.netloc r = w.netloc r := by
          subst shape
          simp [World.netloc, setRequest]
        have ends : timed.ending r = w.ending r := by
          subst shape
          simp [World.ending, setRequest, Request.finished,
            Request.cleanupAfterRedirect, isTimer]
        refine recalling.cancels notMissed (.timer unlinked inPool isTimer listened)
          (by simp) pools netloc ends ?_
        rw [isNext]
        unfold fireTimer
        dsimp only
        rw [if_pos listened, shape]
        unfold onTimer
        simp only [request, unlinked, inPool]

/-- Every permitted step is exact and leaves the iterators valid. -/
theorem Recalling.step
    {before after : Config}
    {label : Label}
    (recalling : Recalling before.state before.stack)
    (keeps : KeepsQueues before label)
    (stepped : machine.step? before label = some after) :
    ExactStep before label after ∧ Recalling after.state after.stack := by
  obtain ⟨w, stack, fault⟩ := before
  cases fault with
  | some reason =>
      simp [CallMachine.Machine.step?] at stepped
  | none =>
      cases label with
      | tick =>
          cases stack with
          | nil =>
              simp [CallMachine.Machine.step?] at stepped
          | cons frame rest =>
              simp only [CallMachine.Machine.step?,
                Option.ite_none_left_eq_some, Option.some.injEq] at stepped
              exact recalling.tick keeps stepped.2.symm
      | ret =>
          cases stack with
          | nil =>
              simp [CallMachine.Machine.step?] at stepped
          | cons frame rest =>
              simp only [CallMachine.Machine.step?,
                Option.ite_none_right_eq_some, Option.some.injEq] at stepped
              obtain ⟨running, rfl⟩ := stepped
              exact recalling.ret running
      | throw =>
          cases stack with
          | nil =>
              simp [CallMachine.Machine.step?] at stepped
          | cons frame rest =>
              simp only [CallMachine.Machine.step?,
                Option.ite_none_right_eq_some, Option.some.injEq,
                Bool.and_eq_true] at stepped
              obtain ⟨⟨running, _⟩, rfl⟩ := stepped
              exact recalling.throw running (keeps.2 frame rest rfl)
      | input input =>
          simp only [CallMachine.Machine.step?, Option.ite_none_right_eq_some,
            Option.map_eq_some_iff] at stepped
          obtain ⟨boundary, outcome, accepted, isNext⟩ := stepped
          exact recalling.input boundary keeps accepted isNext.symm

/--
In every run in which the callbacks of a cancelled request leave its place alone,
cancelling requests that wait is exact.
-/
theorem exactRun_of_keepsQueues
    (w : World)
    (labels : List Label)
    (keeps : machine.Guarded KeepsQueues (start w) labels) :
    ExactRun w labels := by
  intro first label rest before after isRun ran stepped
  rw [isRun] at keeps
  have preserved :
      ∀ config label next,
        (fun config : Config => Recalling config.state config.stack) config →
        KeepsQueues config label →
        machine.step? config label = some next →
        (fun config : Config => Recalling config.state config.stack) next :=
    fun config label next recalling permitted stepped =>
      (recalling.step permitted stepped).2
  have recalling : Recalling before.state before.stack :=
    CallMachine.Machine.run?_invariant preserved (Recalling.of_none _ rfl)
      keeps.front ran
  exact (recalling.step (keeps.next ran) stepped).1

/--
Nothing is called while the callbacks of a cancelled request run, and a cancelled
request waits where it is looked for.
-/
def undisturbed (config : Config) : Label → Bool
  | .tick =>
      config.stack.head?.bind cancellation = none ∨
        cancellations config.stack.tail = []
  | .ret => true
  | .throw => cancellations config.stack = []
  | .input (.cancel r _) | .input (.onTimer r) =>
      let w := config.state
      cancellations config.stack = [] ∧
        ∀ p ∈ (w.requests r).pool,
          ((w.queueOf p (w.netloc r)).find? fun place => place.req == r).isSome
  | .input _ => cancellations config.stack = []

theorem KeepsQueues.of_undisturbed
    {config : Config}
    {label : Label}
    (quiet : undisturbed config label = true) :
    KeepsQueues config label := by
  have found :
      ∀ {p r : Nat},
        cancellations config.stack = [] →
        (∀ p ∈ (config.state.requests r).pool,
          ((config.state.queueOf p (config.state.netloc r)).find?
            fun place => place.req == r).isSome) →
        (config.state.requests r).pool = some p →
        ¬ Misses config p r := by
    intro p r none waits inPool misses
    obtain ⟨place, isPlace⟩ := Option.isSome_iff_exists.mp (waits p inPool)
    have marked := misses.2 place isPlace
    rw [none] at marked
    cases marked
  refine ⟨fun p r error cancels => ?_, ?_⟩
  · cases cancels with
    | request _ inPool | timer _ inPool _ _ =>
        simp only [undisturbed, decide_eq_true_eq] at quiet
        exact found quiet.1 quiet.2 inPool
  · cases label with
    | tick =>
        rintro p key ticket generation rest isReturn ⟨mark, member⟩
        simp only [undisturbed, isReturn, decide_eq_true_eq] at quiet
        rcases quiet with notReturn | none
        · cases notReturn
        · change cancellations rest = [] at none
          rw [none] at member
          cases member
    | ret =>
        trivial
    | throw =>
        intro frame rest isStack
        simp only [undisturbed, isStack, decide_eq_true_eq] at quiet
        have none : cancellations rest = [] :=
          (List.append_eq_nil_iff.mp
            ((cancellations_append [frame] rest).symm.trans quiet)).2
        rw [none, unwind_none none]
    | input input =>
        have none : cancellations config.stack = [] := by
          cases input with
          | cancel r error | onTimer r =>
              simp only [undisturbed, decide_eq_true_eq] at quiet
              exact quiet.1
          | _ =>
              simpa [undisturbed] using quiet
        cases input with
        | poolRequest p r | agentRequest a r uri topLevel =>
            rintro ⟨_, ticket, member⟩
            rw [none] at member
            cases member
        | clientCancel c error =>
            rintro ⟨p, place, rest, _, _, member⟩
            rw [none] at member
            cases member
        | cancel r error =>
            rintro c _ ⟨p, place, rest, _, _, member⟩
            rw [none] at member
            cases member
        | _ =>
            trivial

/-- Two requests wait behind another one, and the first of them is cancelled. -/
def cancelledInTurn : List Label :=
  [.input (.maxConnections 0 1),
    .input (.edit 0 { uri := some { scheme := "http", host := "here" } }),
    .input (.edit 1 { uri := some { scheme := "http", host := "here" } }),
    .input (.edit 2 { uri := some { scheme := "http", host := "here" } }),
    .input (.poolRequest 0 0),
    .input (.poolRequest 0 1),
    .input (.poolRequest 0 2),
    .input (.cancel 1 (some .operationCanceled)),
    .tick,
    .ret,
    .tick,
    .ret,
    .tick]

theorem exactRun_cancelledInTurn : ExactRun (initial {}) cancelledInTurn := by
  have quiet :
      machine.Guarded (fun config label => undisturbed config label = true)
        (start (initial {})) cancelledInTurn := by
    decide +kernel
  exact exactRun_of_keepsQueues _ _
    (quiet.imp fun _ _ => KeepsQueues.of_undisturbed)

/-- A request joins the queue while the callbacks of a cancelled one run. -/
def joinedByAnother : List Label :=
  [.input (.maxConnections 0 1),
    .input (.edit 0 { uri := some { scheme := "http", host := "here" } }),
    .input (.edit 1 { uri := some { scheme := "http", host := "here" } }),
    .input (.edit 2 { uri := some { scheme := "http", host := "here" } }),
    .input (.poolRequest 0 0),
    .input (.poolRequest 0 1),
    .input (.cancel 1 (some .operationCanceled)),
    .tick,
    .ret,
    .tick,
    .input (.poolRequest 0 2),
    .ret]

/-- The place is to be erased, and its iterator is no longer valid. -/
theorem joinedByAnother_reached :
    (run? (initial {}) joinedByAnother).any (fun config =>
      config.stack.head?.bind cancellation =
          some (0, { host := "here", port := 80 }, 0) ∧
        (machine.step? config .tick).any fun next =>
          next.fault = some .invalidIterator) = true := by
  decide +kernel

/-- Another request that joins the queue makes the iterator invalid. -/
theorem joinedByAnother_not_exactRun :
    ¬ ExactRun (initial {}) (joinedByAnother ++ [.tick]) := by
  intro exact
  obtain ⟨config, ran, reached⟩ :=
    (Option.any_eq_true _ _).mp joinedByAnother_reached
  simp only [Bool.decide_and, Bool.and_eq_true, decide_eq_true_eq] at reached
  obtain ⟨marked, faults⟩ := reached
  obtain ⟨next, stepped, invalid⟩ := (Option.any_eq_true _ _).mp faults
  have step :=
    exact joinedByAnother .tick [] config next rfl ran stepped
  obtain ⟨w, stack, fault⟩ := config
  cases stack with
  | nil =>
      cases marked
  | cons frame rest =>
      cases frame with
      | cancelReturn p key ticket generation =>
          obtain ⟨_, front, place, back, _, _, _, noFault, _⟩ :=
            step.returns p key ticket generation rest rfl rfl
          rw [noFault] at invalid
          cases of_decide_eq_true invalid
      | _ =>
          cases marked

end UniEventHttp.ClientSide.World
