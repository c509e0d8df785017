import Mathlib.Data.List.TakeWhile
import UniEventHttp.ServerAccounts

namespace UniEventHttp.ServerConnection

/-!
# How a request leaves the deque

Where the application does not shut the connection down and nothing is received after a
soft close, a request leaves the deque once and for all.  Its finish event is fired at
that moment; and a request that has left without a complete response is told so once, by
the event that fits it, with the error that the connection is closed with.
-/

/-! ## The condition -/

/-- `shutdown` is called, or something is received after a soft close. -/
def shutsOrReads (config : Config) : Label → Bool
  | .input (.shutdown _) => true
  | .input (.onRead _) => decide (.closed true ∈ config.state.trace)
  | _ => false

/--
The application does not shut the connection down; nothing is received after a soft
close or an end of file.
-/
def StaysOpen (config : Config) (label : Label) : Prop :=
  shutsOrReads config label = false

/-- Besides, the connection is closed without an error only if `bare` holds. -/
def ClosesBarely (bare : Prop) (config : Config) (label : Label) : Prop :=
  StaysOpen config label ∧ (label = .input (.close none) → bare)

instance (config : Config) (label : Label) : Decidable (StaysOpen config label) :=
  inferInstanceAs (Decidable (_ = _))

/-! ## What is told of a request that has left -/

/-- The event tells that the request is not served to its end. -/
def isFailure (req : Nat) : Callback → Bool
  | .dropEvent other _ => other == req
  | .errorEvent other _ => other == req
  | .partialEvent other (some _) => other == req
  | _ => false

/-- The failure of the request is observed. -/
def failed (req : Nat) : Event → Bool
  | .fired callback => isFailure req callback
  | _ => false

/-- The event that tells a failure of the request, as it has been received. -/
def failureNotice
    (c : ServerConnection)
    (req : Nat)
    (error : Option ErrorCode) :
    Callback :=
  if (c.store req).isDone then
    .dropEvent req error
  else if (c.store req).partialMode then
    .partialEvent req error
  else
    .errorEvent req error

/-- The finish event is fired at once, when the request has been taken out. -/
def Heeded (req : Nat) (later : List Event) : Prop :=
  ∃ rest,
    later = .fired (.finishEvent req) :: rest ∨
      ∃ error, later = .dropped req error :: .fired (.finishEvent req) :: rest

/-- What is observed since the request left the deque. -/
def sinceLeft (req : Nat) (trace : List Event) : List Event :=
  trace.dropWhile fun event => event != .cleanedUp req

theorem sinceLeft_append
    {req : Nat}
    {trace : List Event}
    (left : .cleanedUp req ∈ trace)
    (events : List Event) :
    sinceLeft req (trace ++ events) = sinceLeft req trace ++ events := by
  have found :
      (trace.dropWhile fun event => event != .cleanedUp req) ≠ [] := by
    rw [Ne, List.dropWhile_eq_nil_iff]
    intro none
    simpa using none _ left
  unfold sinceLeft
  rw [List.dropWhile_append]
  simp only [List.isEmpty_iff, found, ↓reduceIte]

theorem sinceLeft_leaves
    {req : Nat}
    {trace : List Event}
    (present : .cleanedUp req ∉ trace)
    (later : List Event) :
    sinceLeft req (trace ++ .cleanedUp req :: later) = .cleanedUp req :: later := by
  have skipped :
      (trace.dropWhile fun event => event != .cleanedUp req) = [] := by
    rw [List.dropWhile_eq_nil_iff]
    rintro event member
    simp only [bne_iff_ne, ne_eq]
    rintro rfl
    exact present member
  unfold sinceLeft
  rw [List.dropWhile_append]
  simp [skipped]

/-! ## The invariant -/

/-- Such an event is fired by the code that comes next. -/
def isTold : Callback → Bool
  | .finishEvent _ => true
  | .dropEvent _ _ => true
  | .errorEvent _ _ => true
  | .partialEvent _ (some _) => true
  | _ => false

/--
The frame is executed as soon as it is called.  Requests are dropped without an error
only if the application has closed the connection so, or there are none.
-/
def Urgent (bare : Prop) : Frame → Prop
  | .fire callback => isTold callback = true
  | .requestError _ _ => True
  | .dropRequests none _ => ¬ bare
  | _ => False

/-- A failure of the request is still to be told. -/
def pending (req : Nat) : Frame → Bool
  | .dropNotify other _ => other == req
  | .fire callback => isFailure req callback
  | _ => false

/-- What holds of the frame that is executed next. -/
def Foreseen (bare : Prop) (c : ServerConnection) : Frame → Prop
  | .requestError req _ => req ∈ c.requests
  | .dropRequests none _ => bare ∨ c.requests = []
  | .fire callback =>
      ∀ req,
        isFailure req callback = true →
        .cleanedUp req ∈ c.trace →
        ∃ error, callback = c.failureNotice req error
  | _ => True

/-- The request is told by a part of it without an error that it is dropped. -/
def ToldBarely (trace : List Event) (stack : List Frame) (req : Nat) : Prop :=
  (sinceLeft req trace).countP (failed req) + stack.countP (pending req) = 0 ∧
    (.fire (.partialEvent req none) ∈ stack ∨
      .fired (.partialEvent req none) ∈ sinceLeft req trace)

/--
What is known of the requests that have left the deque, where the application has closed
the connection without an error only if `bare` holds.
-/
structure Leaving
    (bare : Prop)
    (c : ServerConnection)
    (stack : List Frame) : Prop where
  once : ∀ req, c.trace.count (.cleanedUp req) ≤ 1
  gone :
    ∀ req,
      .cleanedUp req ∈ c.trace →
      req < c.nextId ∧ req ∉ c.requests ∧ req ∉ held stack
  /-- The request that is being parsed has not left, or nothing more is received. -/
  parsing :
    ∀ req,
      c.parsing = some req →
      req ∈ c.requests ∨ c.Silent ∨ .closed true ∈ c.trace
  reading :
    ∀ buf,
      stack = [.onRead buf] →
      buf ≠ [] →
      c.parsing = none ∨ .closed true ∉ c.trace
  closing :
    ∀ error soft,
      .dropRequests error (.doClose soft) ∈ stack →
      if soft then .closed true ∈ c.trace else c.Silent
  urgent : ∀ frame ∈ stack.tail, ¬ Urgent bare frame
  head : ∀ frame ∈ stack.head?, Foreseen bare c frame
  notifying :
    ∀ req error,
      .dropNotify req error ∈ stack →
      .cleanedUp req ∈ c.trace ∧ (error = none → bare)
  heeded :
    ∀ earlier req later,
      c.trace = earlier ++ .cleanedUp req :: later →
      Heeded req later ∨
        (later = [] ∨ ∃ error, later = [.dropped req error]) ∧
          stack.head? = some (.fire (.finishEvent req))
  told :
    ∀ req,
      .cleanedUp req ∈ c.trace →
      .upgraded req ∈ c.trace ∨
        c.Completed req ∨
          (sinceLeft req c.trace).countP (failed req) + stack.countP (pending req) = 1 ∨
            bare ∧ ToldBarely c.trace stack req

section Leaving

variable {bare : Prop}
variable {c next : ServerConnection}
variable {top below frames : List Frame}
variable {may : Event → Bool}

/-- The events that the invariant is about. -/
def isCounted : Event → Bool
  | .cleanedUp _ => true
  | .fired callback => isTold callback
  | _ => false

/-- The frames that tell nothing and hold no request. -/
def isApart : Frame → Bool
  | .fire callback => !isTold callback
  | .dropNotify _ _ => false
  | .requestError _ _ => false
  | .dropRequests _ _ => false
  | _ => true

theorem isTold_of_isFailure
    {req : Nat}
    {callback : Callback}
    (isNotice : isFailure req callback = true) :
    isTold callback = true := by
  cases callback with
  | partialEvent other error =>
      cases error with
      | none =>
          cases isNotice
      | some error =>
          rfl
  | dropEvent _ _ | errorEvent _ _ =>
      rfl
  | _ =>
      cases isNotice

/-- The frame tells something, or it is to tell it. -/
def isNotice : Frame → Bool
  | .fire _ => true
  | .dropNotify _ _ => true
  | _ => false

theorem pending_of_isNotice
    {frame : Frame}
    (silent : isNotice frame = false)
    (req : Nat) :
    pending req frame = false := by
  cases frame with
  | fire _ | dropNotify _ _ =>
      cases silent
  | _ =>
      rfl

theorem countP_pending_apart
    (apart : ∀ frame ∈ frames, isApart frame = true)
    (req : Nat) :
    frames.countP (pending req) = 0 := by
  rw [List.countP_eq_zero]
  intro frame member isPending
  have isFree := apart frame member
  cases frame with
  | fire callback =>
      simp [isApart, isTold_of_isFailure isPending] at isFree
  | dropNotify _ _ =>
      cases isFree
  | _ =>
      cases isPending

theorem held_apart
    (apart : ∀ frame ∈ frames, isApart frame = true)
    (below : List Frame) :
    held (frames ++ below) = held below := by
  have nothing : held frames = [] := by
    unfold held
    rw [List.filterMap_eq_nil_iff]
    intro frame member
    have isFree := apart frame member
    cases frame with
    | dropRequests _ _ =>
        cases isFree
    | _ =>
        rfl
  rw [held_append, nothing, List.nil_append]

/-- No failure is told by events that the invariant is not about. -/
theorem sinceLeft_grows
    {req : Nat}
    (grows : Grows may c.trace next.trace)
    (uncounted : ∀ event, isCounted event = true → may event = false)
    (left : .cleanedUp req ∈ c.trace) :
    ∃ events,
      sinceLeft req next.trace = sinceLeft req c.trace ++ events ∧
        events.countP (failed req) = 0 := by
  obtain ⟨events, shape, allowed⟩ := grows
  refine ⟨events, by rw [shape, sinceLeft_append left], ?_⟩
  rw [List.countP_eq_zero]
  intro event member isFailed
  have counted : isCounted event = true := by
    cases event with
    | fired callback =>
        exact isTold_of_isFailure isFailed
    | _ =>
        cases isFailed
  simpa [uncounted event counted] using allowed event member

/-- What comes next is not urgent: no frame is. -/
theorem Leaving.calm
    {stack : List Frame}
    (leaving : Leaving bare c stack)
    (onTop : ∀ frame ∈ stack.head?, ¬ Urgent bare frame) :
    ∀ frame ∈ stack, ¬ Urgent bare frame := by
  intro frame member
  cases stack with
  | nil =>
      cases member
  | cons first rest =>
      rcases List.mem_cons.mp member with rfl | inRest
      · exact onTop frame rfl
      · exact leaving.urgent frame inRest

theorem not_urgent_of_isApart
    {frame : Frame}
    (apart : isApart frame = true) :
    ¬ Urgent bare frame := by
  cases frame with
  | fire callback =>
      simpa [isApart, Urgent] using apart
  | requestError _ _ | dropRequests _ _ =>
      cases apart
  | _ =>
      exact id

/-- What is not urgent need not be known of. -/
theorem foreseen_of_calm
    {frame : Frame}
    (calm : ¬ Urgent bare frame) :
    Foreseen bare c frame := by
  cases frame with
  | fire callback =>
      intro req isNotice _
      exact absurd (isTold_of_isFailure isNotice) calm
  | requestError _ _ =>
      exact absurd trivial calm
  | dropRequests error _ =>
      cases error with
      | none =>
          exact Or.inl (not_not.mp calm)
      | some _ =>
          trivial
  | _ =>
      trivial

/-- Where nothing urgent comes next, each departure has been heeded. -/
theorem Leaving.all_heeded
    {stack : List Frame}
    (leaving : Leaving bare c stack)
    (onTop : ∀ frame ∈ stack.head?, ¬ Urgent bare frame)
    {earlier later : List Event}
    {req : Nat}
    (shape : c.trace = earlier ++ .cleanedUp req :: later) :
    Heeded req later := by
  refine (leaving.heeded earlier req later shape).resolve_right ?_
  rintro ⟨_, isNext⟩
  exact onTop _ isNext rfl

theorem Heeded.append
    {req : Nat}
    {later : List Event}
    (heeded : Heeded req later)
    (events : List Event) :
    Heeded req (later ++ events) := by
  obtain ⟨rest, rfl | ⟨error, rfl⟩⟩ := heeded
  · exact ⟨rest ++ events, Or.inl rfl⟩
  · exact ⟨rest ++ events, Or.inr ⟨error, rfl⟩⟩

/-- What a step that takes no request out does to the deque and the requests. -/
structure Stays (c next : ServerConnection) (top : List Frame) : Prop where
  nextId : c.nextId ≤ next.nextId
  silent : c.Silent → next.Silent
  requests :
    ∀ req,
      req < c.nextId →
      req ∈ next.requests →
      req ∈ c.requests ∨ req ∈ held top
  parsing :
    ∀ req,
      next.parsing = some req →
      req ∈ next.requests ∨ next.Silent ∨
        c.parsing = some req ∧ (req ∈ c.requests → req ∈ next.requests)
  completed : ∀ req, req < c.nextId → c.Completed req → next.Completed req

theorem Stays.of_kept
    (kept : Kept c next)
    (completed :
      ∀ req, req < c.nextId → c.Completed req → next.Completed req) :
    Stays c next top where
  nextId := by rw [kept.nextId]
  silent := kept.silent
  requests req _ member := by
    rw [kept.requests] at member
    exact Or.inl member
  parsing req parsing := by
    rw [kept.parsing] at parsing
    exact Or.inr (Or.inr ⟨parsing, by rw [kept.requests]; exact id⟩)
  completed := completed

theorem Stays.of_steady (steady : Steady c next) : Stays c next top :=
  .of_kept steady.toKept fun req _ => steady.completed req

/-- A step that takes no request out, and tells nothing. -/
theorem Leaving.quiet
    (top : List Frame)
    (leaving : Leaving bare c (top ++ below))
    (stays : Stays c next top)
    (grows : Grows may c.trace next.trace)
    (uncounted : ∀ event, isCounted event = true → may event = false)
    (calm : ∀ frame ∈ below, ¬ Urgent bare frame)
    (notFire :
      ∀ callback, (top ++ below).head? = some (.fire callback) → isTold callback = false)
    (silentTop : ∀ frame ∈ top, isNotice frame = false)
    (apart : ∀ frame ∈ frames, isApart frame = true)
    (reading :
      ∀ buf,
        frames ++ below = [.onRead buf] →
        buf ≠ [] →
        next.parsing = none ∨ .closed true ∉ next.trace) :
    Leaving bare next (frames ++ below) := by
  have inBelow :
      ∀ frame ∈ frames ++ below, isApart frame = false → frame ∈ below :=
    fun frame member special =>
      (List.mem_append.mp member).resolve_left fun inFrames => by
        simp [apart frame inFrames] at special
  have old : ∀ event, event ∈ c.trace → event ∈ next.trace :=
    fun _ => grows.mem
  have was : ∀ event, isCounted event = true → event ∈ next.trace → event ∈ c.trace :=
    fun event counted => grows.old (uncounted event counted)
  refine
    { once := fun req => ?_, gone := fun req left => ?_
      parsing := fun req parsing => ?_, reading := reading
      closing := fun error soft member => ?_
      urgent := fun frame member => ?_, head := fun frame isNext => ?_
      notifying := fun req error member => ?_
      heeded := fun earlier req later shape => ?_
      told := fun req left => ?_ }
  · obtain ⟨events, shape, allowed⟩ := grows
    have none : events.count (.cleanedUp req) = 0 := by
      rw [List.count_eq_zero]
      intro member
      simpa [uncounted (.cleanedUp req) rfl] using allowed _ member
    rw [shape, List.count_append, none, Nat.add_zero]
    exact leaving.once req
  · obtain ⟨isOld, away, notHeld⟩ := leaving.gone req (was _ rfl left)
    rw [held_append, List.mem_append, not_or] at notHeld
    rw [held_apart apart]
    refine ⟨lt_of_lt_of_le isOld stays.nextId, fun member => ?_, notHeld.2⟩
    exact (stays.requests req isOld member).elim away notHeld.1
  · rcases stays.parsing req parsing with inside | silent | ⟨wasParsing, kept⟩
    · exact Or.inl inside
    · exact Or.inr (Or.inl silent)
    · exact (leaving.parsing req wasParsing).imp kept
        (Or.imp stays.silent (old _))
  · have before := leaving.closing error soft
      (List.mem_append_right _ (inBelow _ member rfl))
    cases soft with
    | true =>
        exact old _ before
    | false =>
        exact stays.silent before
  · rcases List.mem_append.mp (List.mem_of_mem_tail member) with inFrames | wasThere
    · exact not_urgent_of_isApart (apart frame inFrames)
    · exact calm frame wasThere
  · rcases List.mem_append.mp (List.mem_of_mem_head? isNext) with inFrames | wasThere
    · exact foreseen_of_calm (not_urgent_of_isApart (apart frame inFrames))
    · exact foreseen_of_calm (calm frame wasThere)
  · obtain ⟨left, isError⟩ := leaving.notifying req error
      (List.mem_append_right _ (inBelow _ member rfl))
    exact ⟨old _ left, isError⟩
  · obtain ⟨events, grown, allowed⟩ := grows
    have notNew : .cleanedUp req ∉ events := fun new => by
      simpa [uncounted (.cleanedUp req) rfl] using allowed _ new
    obtain ⟨early, before, rfl⟩ :=
      (split_append (grown.symm.trans shape)).resolve_left notNew
    have heeded : Heeded req early := by
      refine (leaving.heeded earlier req early before).resolve_right ?_
      rintro ⟨_, isNext⟩
      cases notFire _ isNext
    exact Or.inl (heeded.append events)
  · have wasLeft := was _ rfl left
    obtain ⟨events, grown, noFailure⟩ := sinceLeft_grows grows uncounted wasLeft
    have nothing : top.countP (pending req) = 0 :=
      List.countP_eq_zero.mpr fun frame member => by
        simp [pending_of_isNotice (silentTop frame member) req]
    have same :
        (sinceLeft req next.trace).countP (failed req) +
            (frames ++ below).countP (pending req) =
          (sinceLeft req c.trace).countP (failed req) +
            (top ++ below).countP (pending req) := by
      rw [grown, List.countP_append, noFailure, List.countP_append,
        List.countP_append, countP_pending_apart apart, nothing, Nat.add_zero]
    rcases leaving.told req wasLeft with
      upgraded | isCompleted | told | ⟨isBare, told, shown⟩
    · exact Or.inl (old _ upgraded)
    · exact Or.inr (Or.inl
        (stays.completed req (leaving.gone req wasLeft).1 isCompleted))
    · exact Or.inr (Or.inr (Or.inl (same.trans told)))
    · refine Or.inr (Or.inr (Or.inr ⟨isBare, same.trans told, ?_⟩))
      rcases shown with inStack | observed
      · refine Or.inl (List.mem_append_right _ ?_)
        refine (List.mem_append.mp inStack).resolve_left fun inTop => ?_
        cases silentTop _ inTop
      · rw [grown]
        exact Or.inr (List.mem_append_left _ observed)

/-- A frame is called that tells no failure of a request. -/
theorem Leaving.push
    {frame : Frame}
    (leaving : Leaving bare c below)
    (onTop : ∀ other ∈ below.head?, ¬ Urgent bare other)
    (foreseen : Foreseen bare c frame)
    (silent : ∀ req, pending req frame = true → .cleanedUp req ∉ c.trace)
    (notNotify : ∀ req error, frame ≠ .dropNotify req error)
    (holds : ∀ req ∈ held? frame, .cleanedUp req ∉ c.trace)
    (closing :
      ∀ error soft,
        frame = .dropRequests error (.doClose soft) →
        if soft then .closed true ∈ c.trace else c.Silent)
    (notReading : isReader frame = false) :
    Leaving bare c (frame :: below) where
  once := leaving.once
  gone req left := by
    obtain ⟨isOld, away, notHeld⟩ := leaving.gone req left
    refine ⟨isOld, away, fun isHeld => ?_⟩
    cases holdsOne : held? frame with
    | none =>
        exact notHeld (by simpa [held, holdsOne] using isHeld)
    | some other =>
        have either : req = other ∨ req ∈ held below := by
          simpa [held, holdsOne] using isHeld
        rcases either with rfl | inBelow
        · exact holds req holdsOne left
        · exact notHeld inBelow
  parsing := leaving.parsing
  reading buf shape := by
    cases shape
    cases notReading
  closing error soft member := by
    rcases List.mem_cons.mp member with same | inBelow
    · exact closing error soft same.symm
    · exact leaving.closing error soft inBelow
  urgent := leaving.calm onTop
  head other isNext := by
    cases isNext
    exact foreseen
  notifying req error member := by
    rcases List.mem_cons.mp member with same | inBelow
    · exact absurd same.symm (notNotify req error)
    · exact leaving.notifying req error inBelow
  heeded earlier req later shape := Or.inl (leaving.all_heeded onTop shape)
  told req left := by
    have notPending : pending req frame = false :=
      Bool.eq_false_iff.mpr fun isPending => silent req isPending left
    refine (leaving.told req left).imp_right (Or.imp_right (Or.imp ?_ ?_))
    · intro told
      rw [List.countP_cons, notPending]
      exact told
    · rintro ⟨isBare, told, shown⟩
      refine ⟨isBare, ?_, shown.imp_left (List.mem_cons_of_mem _)⟩
      rw [List.countP_cons, notPending]
      exact told

/-- How a request is taken out: it has been served, or it is to be told why not. -/
inductive Parts (bare : Prop) (c : ServerConnection) (req : Nat) :
    List Event → List Frame → Prop where
  | served :
      .upgraded req ∈ c.trace ∨ c.Completed req →
      Parts bare c req [] []
  | dropped {error : Option ErrorCode} :
      (error = none → bare) →
      Parts bare c req [.dropped req error] [.dropNotify req error]

/-- A request of the deque has not left. -/
theorem Leaving.present
    {stack : List Frame}
    {req : Nat}
    (leaving : Leaving bare c stack)
    (member : req ∈ c.requests) :
    .cleanedUp req ∉ c.trace :=
  fun left => (leaving.gone req left).2.1 member

/-- Nothing is still to be told of a request that has not left. -/
theorem Leaving.countP_pending
    {stack : List Frame}
    {req : Nat}
    (leaving : Leaving bare c stack)
    (onTop : ∀ frame ∈ stack.head?, ¬ Urgent bare frame)
    (present : .cleanedUp req ∉ c.trace) :
    stack.countP (pending req) = 0 := by
  rw [List.countP_eq_zero]
  intro frame member isPending
  have calm := leaving.calm onTop frame member
  cases frame with
  | fire callback =>
      exact absurd (isTold_of_isFailure isPending) calm
  | dropNotify other error =>
      obtain rfl : other = req := by simpa [pending] using isPending
      exact present (leaving.notifying other error member).1
  | _ =>
      cases isPending

/-- The first request leaves the deque. -/
theorem Leaving.departs
    {req : Nat}
    {rest : List Nat}
    {post : List Event}
    {notify : List Frame}
    (leaving : Leaving bare c below)
    (onTop : ∀ frame ∈ below.head?, ¬ Urgent bare frame)
    (receiving : Receiving c below)
    (shape : c.requests = req :: rest)
    (parts : Parts bare c req post notify)
    (parsing : c.parsing = some req → c.Silent ∨ .closed true ∈ c.trace)
    (trace : next.trace = c.trace ++ .cleanedUp req :: post)
    (requests : next.requests = rest)
    (nextId : next.nextId = c.nextId)
    (sameParsing : next.parsing = c.parsing)
    (silent : c.Silent → next.Silent)
    (completed : ∀ other, c.Completed other → next.Completed other) :
    Leaving bare next (.fire (.finishEvent req) :: (notify ++ below)) := by
  have member : req ∈ c.requests := by simp [shape]
  have present := leaving.present member
  have sorted := receiving.sorted
  rw [shape, List.pairwise_cons] at sorted
  have away : req ∉ rest := fun inRest => Nat.lt_irrefl req (sorted.1 req inRest)
  have notHeld : req ∉ held below :=
    fun isHeld => (receiving.heldApart req isHeld).2.1 member
  have calm := leaving.calm onTop
  have stays : ∀ event, event ∈ c.trace → event ∈ next.trace := fun event old => by
    rw [trace]
    exact List.mem_append_left _ old
  have onlyNew : ∀ other, .cleanedUp other ∈ post → False := fun other isPost => by
    cases parts <;> simp at isPost
  have leftNow : .cleanedUp req ∈ next.trace := by simp [trace]
  have was :
      ∀ other, .cleanedUp other ∈ next.trace →
        other = req ∨ .cleanedUp other ∈ c.trace := fun other left => by
    rw [trace] at left
    rcases List.mem_append.mp left with old | new
    · exact Or.inr old
    · rcases List.mem_cons.mp new with same | isPost
      · exact Or.inl (by simpa using same)
      · exact (onlyNew other isPost).elim
  have heldSame :
      held (.fire (.finishEvent req) :: (notify ++ below)) = held below := by
    cases parts <;> rfl
  have inBelow :
      ∀ error soft,
        .dropRequests error (.doClose soft) ∈
            .fire (.finishEvent req) :: (notify ++ below) →
          .dropRequests error (.doClose soft) ∈ below := fun error soft inStack => by
    cases parts <;> simpa using inStack
  refine
    { once := fun other => ?_, gone := fun other left => ?_
      parsing := fun other isParsing => ?_, reading := fun buf same => by cases same
      closing := fun error soft inStack => ?_
      urgent := fun frame inTail => ?_, head := fun frame isNext => ?_
      notifying := fun other error inStack => ?_
      heeded := fun earlier other later split => ?_
      told := fun other left => ?_ }
  · rw [trace, List.count_append, List.count_cons]
    have none : post.count (.cleanedUp other) = 0 :=
      List.count_eq_zero.mpr fun isPost => onlyNew other isPost
    have before := leaving.once other
    by_cases same : other = req
    · subst other
      have notBefore := List.count_eq_zero.mpr present
      simp [none, notBefore]
    · have different : (Event.cleanedUp req == .cleanedUp other) = false := by
        simp [Ne.symm same]
      simpa [none, different] using before
  · rw [nextId, requests, heldSame]
    rcases was other left with rfl | old
    · exact ⟨receiving.requestsBelow other member, away, notHeld⟩
    · obtain ⟨isOld, notIn, notHeldThere⟩ := leaving.gone other old
      rw [shape] at notIn
      exact ⟨isOld, fun inRest => notIn (List.mem_cons_of_mem _ inRest),
        notHeldThere⟩
  · rw [sameParsing] at isParsing
    rw [requests]
    have ends :
        c.Silent ∨ .closed true ∈ c.trace →
        other ∈ rest ∨ next.Silent ∨ .closed true ∈ next.trace :=
      fun ended => Or.inr (ended.imp silent (stays _))
    rcases leaving.parsing other isParsing with inside | ended
    · rw [shape] at inside
      rcases List.mem_cons.mp inside with rfl | inRest
      · exact ends (parsing isParsing)
      · exact Or.inl inRest
    · exact ends ended
  · have before := leaving.closing error soft (inBelow error soft inStack)
    cases soft with
    | true =>
        exact stays _ before
    | false =>
        exact silent before
  · rcases List.mem_append.mp inTail with isNotify | old
    · cases parts with
      | served _ =>
          cases isNotify
      | dropped _ =>
          rw [List.mem_singleton.mp isNotify]
          exact id
    · exact calm frame old
  · cases isNext
    intro other isNotice
    cases isNotice
  · rcases List.mem_cons.mp inStack with isFire | inTail
    · cases isFire
    · rcases List.mem_append.mp inTail with isNotify | old
      · cases parts with
        | served _ =>
            cases isNotify
        | dropped isError =>
            obtain ⟨rfl, rfl⟩ : other = req ∧ error = _ := by
              simpa using isNotify
            exact ⟨leftNow, isError⟩
      · obtain ⟨left, isError⟩ := leaving.notifying other error old
        exact ⟨stays _ left, isError⟩
  · rw [trace] at split
    rcases split_append split with new | ⟨early, old, rfl⟩
    · have same : other = req := by
        rcases List.mem_cons.mp new with same | isPost
        · simpa using same
        · exact (onlyNew other isPost).elim
      subst other
      have unique :
          earlier = c.trace ∧ later = post := by
        rcases List.append_eq_append_iff.mp split with
          ⟨between, front, back⟩ | ⟨between, front, back⟩
        · cases between with
          | nil =>
              simp only [List.nil_append, List.cons.injEq, true_and] at back
              simp [front, back]
          | cons event between =>
              obtain ⟨_, inPost⟩ := List.cons.inj back
              exact (onlyNew req (by simp [inPost])).elim
        · cases between with
          | nil =>
              simp only [List.nil_append, List.cons.injEq, true_and] at back
              simp [front, back]
          | cons event between =>
              obtain ⟨rfl, _⟩ := List.cons.inj back
              exact (present (by simp [front])).elim
      refine Or.inr ⟨?_, rfl⟩
      rw [unique.2]
      cases parts with
      | served _ =>
          exact Or.inl rfl
      | dropped _ =>
          exact Or.inr ⟨_, rfl⟩
    · exact Or.inl ((leaving.all_heeded onTop old).append _)
  · rcases was other left with rfl | old
    · cases parts with
      | served ended =>
          exact ended.imp (stays _) fun isCompleted =>
            Or.inl (completed other isCompleted)
      | dropped _ =>
          refine Or.inr (Or.inr (Or.inl ?_))
          rw [trace, sinceLeft_leaves present]
          simp [failed, pending, isFailure, leaving.countP_pending onTop present]
    · have different : other ≠ req := by
        rintro rfl
        exact present old
      have grown :
          sinceLeft other next.trace =
            sinceLeft other c.trace ++ .cleanedUp req :: post := by
        rw [trace, sinceLeft_append old]
      have same :
          (sinceLeft other next.trace).countP (failed other) +
              (Frame.fire (.finishEvent req) :: (notify ++ below)).countP
                (pending other) =
            (sinceLeft other c.trace).countP (failed other) +
              below.countP (pending other) := by
        have none :
            (Event.cleanedUp req :: post).countP (failed other) = 0 := by
          cases parts <;> simp [failed]
        have noFrame :
            (Frame.fire (.finishEvent req) :: (notify ++ below)).countP
                (pending other) =
              below.countP (pending other) := by
          cases parts <;>
            simp [pending, isFailure, Ne.symm different]
        rw [grown, List.countP_append, none, noFrame, Nat.add_zero]
      rcases leaving.told other old with
        upgraded | isCompleted | told | ⟨isBare, told, shown⟩
      · exact Or.inl (stays _ upgraded)
      · exact Or.inr (Or.inl (completed other isCompleted))
      · exact Or.inr (Or.inr (Or.inl (same.trans told)))
      · refine Or.inr (Or.inr (Or.inr ⟨isBare, same.trans told, ?_⟩))
        refine shown.imp (fun inBelow => ?_) fun observed => ?_
        · exact List.mem_cons_of_mem _ (List.mem_append_right _ inBelow)
        · rw [grown]
          exact List.mem_append_left _ observed

/-! ## The steps -/

theorem Leaving.fires
    {callback : Callback}
    (leaving : Leaving bare c (.fire callback :: below)) :
    Leaving bare (c.emit (.fired callback)) (.callback callback :: below) := by
  have trace : (c.emit (.fired callback)).trace = c.trace ++ [.fired callback] :=
    rfl
  have was :
      ∀ req, .cleanedUp req ∈ (c.emit (.fired callback)).trace →
        .cleanedUp req ∈ c.trace := fun req left => by
    simpa [trace] using left
  have old : ∀ event ∈ c.trace, event ∈ (c.emit (.fired callback)).trace :=
    fun event => List.mem_append_left _
  refine
    { once := fun req => ?_, gone := fun req left => leaving.gone req (was req left)
      parsing := fun req parsing =>
        (leaving.parsing req parsing).imp_right (Or.imp_right (old _))
      reading := fun buf same => by cases same
      closing := fun error soft member => ?_
      urgent := leaving.urgent, head := fun frame isNext => by cases isNext; trivial
      notifying := fun req error member => ?_
      heeded := fun earlier req later shape => ?_
      told := fun req left => ?_ }
  · rw [trace, List.count_append]
    exact leaving.once req
  · have before := leaving.closing error soft
      (List.mem_cons_of_mem _ (by simpa using member))
    cases soft with
    | true =>
        exact old _ before
    | false =>
        exact before
  · obtain ⟨left, isError⟩ :=
      leaving.notifying req error (List.mem_cons_of_mem _ (by simpa using member))
    exact ⟨old _ left, isError⟩
  · obtain ⟨early, before, rfl⟩ :=
      (split_append shape).resolve_left (by simp)
    rcases leaving.heeded earlier req early before with heeded | ⟨shown, isNext⟩
    · exact Or.inl (heeded.append _)
    · obtain rfl : callback = .finishEvent req := by simpa using isNext
      rcases shown with rfl | ⟨error, rfl⟩
      · exact Or.inl ⟨[], Or.inl rfl⟩
      · exact Or.inl ⟨[], Or.inr ⟨error, rfl⟩⟩
  · have wasLeft := was req left
    have same :
        (sinceLeft req (c.emit (.fired callback)).trace).countP (failed req) +
            (Frame.callback callback :: below).countP (pending req) =
          (sinceLeft req c.trace).countP (failed req) +
            (Frame.fire callback :: below).countP (pending req) := by
      rw [trace, sinceLeft_append wasLeft]
      cases isFailed : isFailure req callback with
      | false =>
          simp [failed, pending, isFailed]
      | true =>
          simp [failed, pending, isFailed]
          omega
    refine (leaving.told req wasLeft).imp (old _)
      (Or.imp_right (Or.imp same.trans ?_))
    rintro ⟨isBare, told, shown⟩
    refine ⟨isBare, same.trans told, ?_⟩
    rw [trace, sinceLeft_append wasLeft]
    rcases shown with inStack | observed
    · rcases List.mem_cons.mp inStack with isFire | inBelow
      · obtain rfl : .partialEvent req none = callback := by simpa using isFire
        exact Or.inr (by simp)
      · exact Or.inl (List.mem_cons_of_mem _ inBelow)
    · exact Or.inr (List.mem_append_left _ observed)

theorem eq_of_reported
    {mode : Bool}
    {req other : Nat}
    {error : ErrorCode}
    (isNotice :
      isFailure other
          (if mode then .partialEvent req (some error)
          else .errorEvent req (some error)) = true) :
    req = other := by
  cases mode <;> simpa [isFailure] using isNotice

/-- `request_error` reports a failure of a request that is in the deque. -/
theorem Leaving.reports
    {req : Nat}
    {error : ErrorCode}
    (leaving : Leaving bare c (.requestError req error :: below))
    (executed : c.requestError req error = .next next frames) :
    Leaving bare next (frames ++ below) := by
  have present : .cleanedUp req ∉ c.trace :=
    leaving.present (leaving.head _ rfl)
  have grows : Grows (fun event => event == .readIgnored) c.trace c.readIgnore.trace :=
    Grows.snoc c.trace (by simp)
  have ignored : Leaving bare c.readIgnore ([.requestErrorReturn req] ++ below) := by
    refine Leaving.quiet [.requestError req error] leaving
      (.of_steady (.readIgnore c)) grows ?_ leaving.urgent (by simp)
      (by simp [isNotice]) (by simp [isApart]) ?_
    · rintro event counted
      cases event <;> first | rfl | cases counted
    · intro buf shape
      cases shape
  cases executed
  refine ignored.push (by simp [Urgent]) ?_ ?_ (by simp) (by simp [held?]) (by simp)
    rfl
  · intro other isNotice left
    obtain rfl := eq_of_reported isNotice
    exact absurd (by simpa [readIgnore] using left) present
  · intro other isPending left
    obtain rfl := eq_of_reported isPending
    exact present (by simpa [readIgnore] using left)

/-- What is left of a buffer is handed on while the parser is between two requests. -/
theorem parsing_of_between
    (top : List Frame)
    (between : Between c (top ++ below))
    (handed :
      ∀ frame ∈ frames, buffer frame ≠ [] → ∃ other ∈ top, buffer other ≠ [])
    {buf : List Parsed}
    (shape : frames ++ below = [.onRead buf])
    (nonempty : buf ≠ []) :
    c.parsing = none := by
  have member : .onRead buf ∈ frames ++ below := by simp [shape]
  rcases List.mem_append.mp member with inFrames | inBelow
  · obtain ⟨other, inTop, left⟩ := handed _ inFrames nonempty
    exact between other (List.mem_append_left _ inTop) left
  · exact between _ (List.mem_append_right _ inBelow) nonempty

/-- The event is a failure of the request, or it is told to it without an error. -/
theorem isFailure_failureNotice
    (c : ServerConnection)
    (req : Nat)
    (error : Option ErrorCode) :
    (∀ other, isFailure other (c.failureNotice req error) = (req == other)) ∨
      error = none ∧ c.failureNotice req error = .partialEvent req none := by
  unfold failureNotice
  split
  · exact Or.inl fun _ => rfl
  · split
    · cases error with
      | none =>
          exact Or.inr ⟨rfl, rfl⟩
      | some error =>
          exact Or.inl fun _ => rfl
    · exact Or.inl fun _ => rfl

/-- What is still to be told of the requests, when a dropped one has been told. -/
theorem told_of_notifies
    {req other : Nat}
    {error : Option ErrorCode}
    {trace : List Event}
    (isError : error = none → bare)
    (told :
      (sinceLeft other trace).countP (failed other) +
            (Frame.dropNotify req error :: below).countP (pending other) = 1 ∨
        bare ∧ ToldBarely trace (.dropNotify req error :: below) other) :
    (sinceLeft other trace).countP (failed other) +
          (Frame.fire (c.failureNotice req error) :: below).countP (pending other) =
        1 ∨
      bare ∧
        ToldBarely trace (.fire (c.failureNotice req error) :: below) other := by
  have keeps :
      pending other (.fire (c.failureNotice req error)) =
          pending other (.dropNotify req error) →
        (sinceLeft other trace).countP (failed other) +
              (Frame.fire (c.failureNotice req error) :: below).countP
                (pending other) = 1 ∨
          bare ∧
            ToldBarely trace (.fire (c.failureNotice req error) :: below) other := by
    intro same
    have counts :
        (Frame.fire (c.failureNotice req error) :: below).countP (pending other) =
          (Frame.dropNotify req error :: below).countP (pending other) := by
      rw [List.countP_cons, List.countP_cons, same]
    refine told.imp (fun told => ?_) (And.imp_right fun ⟨told, shown⟩ => ⟨?_, ?_⟩)
    · rw [counts]
      exact told
    · rw [counts]
      exact told
    · exact shown.imp_left fun inStack =>
        List.mem_cons_of_mem _ (by simpa using inStack)
  rcases isFailure_failureNotice c req error with tells | ⟨rfl, shape⟩
  · exact keeps (tells other)
  · by_cases same : req = other
    · subst other
      rw [shape]
      refine Or.inr ⟨isError rfl, ?_, Or.inl List.mem_cons_self⟩
      have isPending : pending req (.dropNotify req none) = true := by
        simp [pending]
      have notPending : pending req (.fire (.partialEvent req none)) = false := rfl
      rw [List.countP_cons_of_neg (by simp [notPending])]
      rcases told with told | ⟨_, told, _⟩ <;>
        rw [List.countP_cons_of_pos isPending] at told <;> omega
    · refine keeps ?_
      rw [shape]
      simp [pending, isFailure, same]

/-- The dropped request is told so, by the event that fits it, or it was settled. -/
theorem Leaving.notifies
    {req : Nat}
    {error : Option ErrorCode}
    (leaving : Leaving bare c (.dropNotify req error :: below))
    (between : Between c (.dropNotify req error :: below))
    (executed : c.dropNotify req error = .next next frames) :
    Leaving bare next (frames ++ below) := by
  obtain ⟨left, isError⟩ := leaving.notifying req error List.mem_cons_self
  have outcome :
      c = next ∧
        (frames = [] ∧ c.Completed req ∨
          frames = [.fire (c.failureNotice req error)]) := by
    unfold dropNotify at executed
    dsimp only at executed
    split at executed
    · rename_i notDone
      have notDone : (c.store req).isDone = false := by simpa using notDone
      split at executed <;> rename_i mode <;> cases executed
      · exact ⟨rfl, Or.inr (by simp [failureNotice, notDone, mode])⟩
      · exact ⟨rfl, Or.inr (by simp [failureNotice, notDone, mode])⟩
    · rename_i done
      have done : (c.store req).isDone = true := by simpa using done
      split at executed <;> rename_i completed <;> cases executed
      · exact ⟨rfl, Or.inl ⟨rfl, completed⟩⟩
      · exact ⟨rfl, Or.inr (by simp [failureNotice, done])⟩
  obtain ⟨rfl, outcome⟩ := outcome
  have inBelow :
      ∀ frame ∈ frames ++ below,
        (∀ callback, frame ≠ .fire callback) → frame ∈ below := by
    intro frame member notFire
    refine (List.mem_append.mp member).resolve_left fun inFrames => ?_
    rcases outcome with ⟨rfl, _⟩ | rfl
    · cases inFrames
    · exact notFire _ (List.mem_singleton.mp inFrames)
  refine
    { once := leaving.once, gone := fun other gone => ?_
      parsing := leaving.parsing, reading := fun buf shape => ?_
      closing := fun cause soft member => leaving.closing cause soft
        (List.mem_cons_of_mem _ (inBelow _ member (by simp)))
      urgent := fun frame member => ?_, head := fun frame isNext => ?_
      notifying := fun other cause member => leaving.notifying other cause
        (List.mem_cons_of_mem _ (inBelow _ member (by simp)))
      heeded := fun earlier other later shape =>
        Or.inl (leaving.all_heeded (by simp [Urgent]) shape)
      told := fun other gone => ?_ }
  · have sameHeld : held (frames ++ below) = held (.dropNotify req error :: below) := by
      rcases outcome with ⟨rfl, _⟩ | rfl <;> rfl
    rw [sameHeld]
    exact leaving.gone other gone
  · refine fun nonempty =>
      Or.inl (parsing_of_between [.dropNotify req error] between ?_ shape nonempty)
    rcases outcome with ⟨rfl, _⟩ | rfl <;> simp [buffer]
  · rcases outcome with ⟨rfl, _⟩ | rfl
    · exact leaving.urgent frame (List.mem_of_mem_tail member)
    · exact leaving.urgent frame member
  · rcases outcome with ⟨rfl, _⟩ | rfl
    · exact foreseen_of_calm
        (leaving.urgent frame (List.mem_of_mem_head? isNext))
    · cases isNext
      intro other isNotice _
      rcases isFailure_failureNotice c req error with tells | ⟨_, shape⟩
      · rw [tells, beq_iff_eq] at isNotice
        exact ⟨error, by rw [isNotice]⟩
      · rw [shape] at isNotice
        cases isNotice
  · refine (leaving.told other gone).imp_right (fun told => ?_)
    rcases outcome with ⟨rfl, completed⟩ | rfl
    · by_cases same : req = other
      · exact Or.inl (same ▸ completed)
      · have notPending : pending other (.dropNotify req error) = false := by
          simpa [pending] using same
        simpa [ToldBarely, List.countP_cons, notPending] using told
    · exact told.imp_right (told_of_notifies isError)

theorem completed_cleanupRequest
    (c : ServerConnection)
    (req : Nat)
    (rest : List Nat)
    (other : Nat) :
    (c.cleanupRequest req rest).Completed other ↔ c.Completed other := by
  by_cases same : other = req <;>
    simp [Completed, cleanupRequest, emit, ServerRequest.responseCompleted, same]

/-- `finish_request` waits for the end of the first request, or takes it out. -/
theorem Leaving.finishes
    (leaving : Leaving bare c (.finishRequest :: below))
    (receiving : Receiving c (.finishRequest :: below))
    (executed : c.finishRequest = .next next frames) :
    Leaving bare next (frames ++ below) := by
  have between := receiving.between (by simp)
  have quiet :
      ∀ {later called},
        Stays c later [.finishRequest] →
        later.trace = c.trace →
        later.parsing = c.parsing →
        (∀ frame ∈ called, isApart frame = true ∧ buffer frame = []) →
        Leaving bare later (called ++ below) := by
    intro later called stays trace parsing isCalm
    have grows : Grows (fun _ => false) c.trace later.trace := by
      rw [trace]
      exact Grows.refl c.trace
    refine Leaving.quiet [.finishRequest] leaving stays grows (fun _ _ => rfl)
      leaving.urgent (by simp) (by simp [isNotice])
      (fun frame member => (isCalm frame member).1) ?_
    intro buf shape nonempty
    rw [parsing]
    exact Or.inl (parsing_of_between [.finishRequest] between
      (fun frame member left => absurd (isCalm frame member).2 left) shape nonempty)
  obtain ⟨req, rest, shape, completed, ⟨_, rfl, rfl⟩ | ⟨done, rfl, rfl⟩⟩ :=
    finishRequest_next executed
  · have kept : Kept c
        (c.setRequest req { c.store req with finishOnReceive := true }) :=
      .setRequest c req _ rfl rfl
    refine quiet (.of_kept kept fun other _ given => ?_) rfl rfl (by simp)
    by_cases same : other = req
    · subst other
      simpa [Completed, ServerRequest.responseCompleted] using given
    · simpa [Completed, same] using given
  · have waits : Leaving bare c ([.finishReturn] ++ below) :=
      quiet (.of_steady (.refl c)) rfl rfl (by simp [isApart, buffer])
    have received : Receiving c ([.finishReturn] ++ below) :=
      receiving.replace [.finishRequest] between (by simp [isInner])
        (by simp [isInner])
    exact waits.departs (by simp [Urgent]) received shape
      (.served (Or.inr completed))
      (fun parsing => Or.inl (receiving.parsingDone req parsing done))
      rfl rfl rfl rfl id fun other => (completed_cleanupRequest c req rest other).mpr

/-- `drop_requests` takes out the first request, or it returns. -/
theorem Leaving.dropRequests
    {error : Option ErrorCode}
    {returns : DropReturn}
    (leaving : Leaving bare c (.dropRequests error returns :: below))
    (receiving : Receiving c (.dropRequests error returns :: below))
    (executed :
      ServerConnection.code (.dropRequests error returns) c = .next next frames) :
    Leaving bare next (frames ++ below) := by
  have between := receiving.between (by simp)
  have quiet :
      Stays c next [.dropRequests error returns] →
      Grows (fun event => !isCounted event) c.trace next.trace →
      next.parsing = c.parsing →
      (∀ frame ∈ frames, isApart frame = true ∧ buffer frame = []) →
      Leaving bare next (frames ++ below) := by
    intro stays grows parsing isCalm
    refine Leaving.quiet [.dropRequests error returns] leaving stays grows
      (fun event counted => by simp [counted]) leaving.urgent (by simp)
      (by simp [isNotice]) (fun frame member => (isCalm frame member).1) ?_
    intro buf shape nonempty
    rw [parsing]
    exact Or.inl (parsing_of_between [.dropRequests error returns] between
      (fun frame member left => absurd (isCalm frame member).2 left) shape nonempty)
  have back :
      ∀ {req tmpChunks},
        returns = .writeNextResponse req tmpChunks →
        c.requests = [] →
        Steady { c with requests := [req] } next →
        Stays c next [.dropRequests error returns] := by
    rintro req tmpChunks rfl empty steady
    refine
      { nextId := by rw [steady.nextId]
        silent := steady.silent
        requests := fun other _ member => ?_
        parsing := fun other parsing => ?_
        completed := fun other _ => steady.completed other }
    · rw [steady.requests] at member
      exact Or.inr (by simpa [held, held?] using member)
    · rw [steady.parsing] at parsing
      exact Or.inr (Or.inr ⟨parsing, by simp [empty]⟩)
  cases dropRequests_deed executed with
  | answers answers _ _ _ | closes answers _ =>
      cases answers
  | rests _ | dropped _ =>
      exact quiet (.of_steady (.refl c)) (Grows.refl _) rfl (by simp)
  | removes _ =>
      exact quiet (.of_steady (.emit c _)) (Grows.snoc _ rfl) rfl
        (by simp [isApart, buffer])
  | finishesHeld empty _ =>
      exact quiet (back rfl empty (.refl _)) (Grows.refl _) rfl
        (by simp [isApart, buffer])
  | flushesHeld empty _ =>
      rename_i req tmpChunks _
      have steady := Steady.writeChunks { c with requests := [req] } req tmpChunks
      exact quiet (back rfl empty steady)
        (writeChunks_grows { c with requests := [req] } req (fun _ => rfl) tmpChunks)
        steady.parsing (by simp)
  | pops shape =>
      rename_i req rest
      have isError : error = none → bare := by
        rintro rfl
        have known : bare ∨ c.requests = [] := leaving.head _ rfl
        exact known.resolve_right (by simp [shape])
      have calm :
          ∀ frame ∈ (Frame.dropRequests error returns :: below).head?,
            ¬ Urgent bare frame := by
        cases error with
        | none =>
            simp [Urgent, isError rfl]
        | some cause =>
            simp [Urgent]
      have ends : c.parsing = some req → c.Silent ∨ .closed true ∈ c.trace := by
        intro parsing
        cases returns with
        | doClose soft =>
            have closing := leaving.closing error soft List.mem_cons_self
            cases soft with
            | true =>
                exact Or.inr closing
            | false =>
                exact Or.inl closing
        | writeNextResponse other tmpChunks =>
            have isHeld :
                other ∈ held (.dropRequests error
                  (.writeNextResponse other tmpChunks) :: below) := by
              simp [held, held?]
            exact Or.inl (receiving.heldApart other isHeld).2.2.2
      have trace :
          ((c.cleanupRequest req rest).emit (.dropped req error)).trace =
            c.trace ++ [.cleanedUp req, .dropped req error] := by
        simp [cleanupRequest, emit, setRequest]
      exact leaving.departs calm receiving shape (.dropped isError) ends trace rfl rfl
        rfl id fun other => (completed_cleanupRequest c req rest other).mpr

theorem callback_of_boundary
    {stack : List Frame}
    {frame : Frame}
    (boundary : machine.atBoundary stack = true)
    (isNext : stack.head? = some frame) :
    ∃ callback, frame = .callback callback := by
  obtain ⟨rest, rfl⟩ : ∃ rest, stack = frame :: rest := by
    cases stack <;> simp_all
  have runs : isCallback frame = true := boundary
  cases frame with
  | callback callback =>
      exact ⟨callback, rfl⟩
  | _ =>
      cases runs

theorem calm_of_boundary
    {stack : List Frame}
    (boundary : machine.atBoundary stack = true) :
    ∀ frame ∈ stack.head?, ¬ Urgent bare frame := by
  intro frame isNext
  obtain ⟨callback, rfl⟩ := callback_of_boundary boundary isNext
  exact id

/-- `upgrade` takes out the only request. -/
theorem Leaving.upgrades
    {req : Nat}
    (leaving : Leaving bare c below)
    (receiving : Receiving c below)
    (boundary : machine.atBoundary below = true)
    (executed : c.requestUpgrade req = .next next frames) :
    Leaving bare next (frames ++ below) := by
  rcases requestUpgrade_next executed with
    ⟨rfl, rfl⟩ | ⟨_, _, shape, rfl, rfl⟩
  · exact leaving
  · have handed := Steady.handOver c req
    have grows :
        Grows (fun event => !isCounted event) c.trace (c.trace ++ [.upgraded req]) :=
      Grows.snoc c.trace rfl
    have waits :
        Leaving bare
          (({ c with
            stream := { c.stream with listener := false }
            idleTimer := none } : ServerConnection).emit (.upgraded req))
          ([.upgradeReturn] ++ below) := by
      refine Leaving.quiet [] leaving (.of_steady handed) grows
        (fun event counted => by simp [counted])
        (leaving.calm (calm_of_boundary boundary)) ?_ (by simp) (by simp [isApart]) ?_
      · intro callback isNext
        obtain ⟨other, same⟩ := callback_of_boundary boundary isNext
        cases same
      · intro buf same
        cases same
    have received :
        Receiving
          (({ c with
            stream := { c.stream with listener := false }
            idleTimer := none } : ServerConnection).emit (.upgraded req))
          ([.upgradeReturn] ++ below) :=
      receiving.quiet [] (by simp) (boundary_between receiving boundary)
        ⟨handed.toKept, by simp [isInner]⟩
    refine waits.departs (by simp [Urgent]) received shape (.served (Or.inl ?_))
      (fun _ => Or.inl (by simp [Silent, canRead, emit])) rfl rfl rfl rfl id
      fun other => (completed_cleanupRequest _ req [] other).mpr
    simp [emit]

/-- The request that is being parsed has not left. -/
theorem Leaving.parses
    {result : Parsed}
    {rest : List Parsed}
    {parsed : ServerConnection}
    {req : Nat}
    (leaving : Leaving bare c (.onRead (result :: rest) :: below))
    (receiving : Receiving c (.onRead (result :: rest) :: below))
    (parses : Parses c result parsed req) :
    Stays c parsed [.onRead (result :: rest)] ∧ req ∈ parsed.requests ∧
      Grows (fun event => !isCounted event) c.trace parsed.trace := by
  have grows : Grows (fun event => !isCounted event) c.trace parsed.trace := by
    obtain ⟨_, _, ⟨_, _, _, trace⟩ | ⟨_, _, _, _, trace⟩⟩ := parses.origin <;>
      rw [trace]
    · refine ⟨_, rfl, ?_⟩
      split <;> simp [isCounted]
    · refine ⟨_, List.append_assoc _ _ _, ?_⟩
      split <;> simp [isCounted]
  have member : req ∈ parsed.requests := by
    rw [parses.requests]
    split
    · rename_i last
      exact List.mem_of_getLast? last
    · simp
  refine ⟨?_, member, grows⟩
  obtain ⟨alone, joins⟩ := receiving.joins parses
  subst alone
  refine
    { nextId := parses.nextId
      silent := by simp [Silent, canRead, parses.stream]
      requests := fun other isOld inside => Or.inl ?_
      parsing := fun other parsing => Or.inl ?_
      completed := fun other isOld completed => ?_ }
  · rcases joins with ⟨_, _, same⟩ | ⟨parsing, empty, _⟩ | ⟨_, isNext, joined⟩
    · rwa [same] at inside
    · exfalso
      have notSilent : ¬ c.Silent := by
        rcases receiving.buffered with between | ⟨_, _, notSilent⟩
        · have idle := between (.onRead (result :: rest)) (by simp) (by simp [buffer])
          simp [parsing] at idle
        · exact notSilent
      rcases leaving.parsing req parsing with inDeque | silent | closed
      · simp [empty] at inDeque
      · exact notSilent silent
      · rcases leaving.reading _ rfl (by simp) with idle | notClosed
        · simp [parsing] at idle
        · exact notClosed closed
    · rw [joined] at inside
      rcases List.mem_append.mp inside with inDeque | isNew
      · exact inDeque
      · have := List.mem_singleton.mp isNew
        omega
  · rw [parses.parsing] at parsing
    split at parsing
    · cases parsing
    · rw [← Option.some.inj parsing]
      exact member
  · have stored := (parses.stored isOld).2
    simpa [Completed, ServerRequest.responseCompleted, stored] using completed

/-- A part of a buffer is parsed. -/
theorem Leaving.onReadLoop
    {buf : List Parsed}
    (leaving : Leaving bare c (.onRead buf :: below))
    (receiving : Receiving c (.onRead buf :: below))
    (executed : c.onReadLoop buf = .next next frames) :
    Leaving bare next (frames ++ below) := by
  obtain rfl := receiving.alone rfl
  have quiet :
      ∀ called {later},
        Stays c later [.onRead buf] →
        Grows (fun event => !isCounted event) c.trace later.trace →
        (∀ frame ∈ called, isApart frame = true ∧ ∀ left, frame ≠ .onRead left) →
        Leaving bare later (called ++ []) := by
    intro called later stays grows isCalm
    refine Leaving.quiet [.onRead buf] leaving stays grows
      (fun event counted => by simp [counted]) (by simp) (by simp)
      (by simp [isNotice]) (fun frame member => (isCalm frame member).1) ?_
    intro left shape
    have member : .onRead left ∈ called := by
      rw [List.append_nil] at shape
      simp [shape]
    exact absurd rfl ((isCalm _ member).2 left)
  cases buf with
  | nil =>
      cases executed
      exact quiet [] (.of_steady (.refl c)) (Grows.refl _) (by simp)
  | cons result rest =>
      obtain ⟨parsed, req, parses, reads⟩ := onReadLoop_next executed
      obtain ⟨stays, member, grows⟩ := leaving.parses receiving parses
      have push :
          ∀ {called error},
            Leaving bare parsed called →
            (∀ frame ∈ called.head?, ¬ Urgent bare frame) →
            Leaving bare parsed (.requestError req error :: called) :=
        fun called onTop =>
          called.push onTop member (by simp [pending]) (by simp) (by simp [held?])
            (by simp) rfl
      cases reads with
      | error _ =>
          exact push (quiet [] stays grows (by simp)) (by simp)
      | headers _ =>
          exact quiet [] stays grows (by simp)
      | upgrade _ _ =>
          exact push
            (quiet [.readIgnore] stays grows (by simp [isApart]))
            (by simp [Urgent])
      | again _ _ =>
          exact quiet _ stays grows (by simp [isApart])
      | route _ _ =>
          have kept : Kept parsed
              (parsed.setRequest req { parsed.store req with routed := true }) :=
            .setRequest parsed req _ rfl rfl
          refine quiet _ ?_ grows (by simp [isApart, isTold])
          refine
            { nextId := stays.nextId, silent := stays.silent
              requests := stays.requests, parsing := stays.parsing
              completed := fun other isOld completed => ?_ }
          have before := stays.completed other isOld completed
          by_cases same : other = req
          · subst other
            simpa [Completed, ServerRequest.responseCompleted] using before
          · simpa [Completed, same] using before

/-- A read error ends the last request, or it is given a request of its own. -/
theorem Leaving.readFails
    {error : ErrorCode}
    {req : Nat}
    (leaving : Leaving bare c [])
    (fails : ReadFails { c with stream := { c.stream with ended := true } } next req) :
    Leaving bare next [.requestError req error] := by
  have member : req ∈ next.requests := by
    rcases fails.origin with ⟨last, _, same, _⟩ | ⟨_, _, joined, _⟩
    · rw [same]
      exact List.mem_of_getLast? last
    · simp [joined]
  have grows : Grows (fun event => !isCounted event) c.trace next.trace := by
    rcases fails.origin with ⟨_, _, _, _, trace, _⟩ | ⟨_, _, _, _, trace, _⟩ <;>
      rw [trace]
    · exact Grows.refl _
    · exact ⟨_, rfl, by simp [isCounted]⟩
  have silent : next.Silent := by
    simp [Silent, canRead, fails.stream]
  have stays : Stays c next [] := by
    refine
      { nextId := fails.nextId, silent := fun _ => silent
        requests := fun other isOld inside => Or.inl ?_
        parsing := fun _ _ => Or.inr (Or.inl silent)
        completed := fun other isOld completed => ?_ }
    · rcases fails.origin with ⟨_, _, same, _⟩ | ⟨_, isNext, joined, _⟩
      · rwa [same] at inside
      · rw [joined] at inside
        rcases List.mem_append.mp inside with inDeque | isNew
        · exact inDeque
        · have isReq := List.mem_singleton.mp isNew
          have newest : req = c.nextId := isNext
          omega
    · have stored := (fails.stored isOld).2
      simpa [Completed, ServerRequest.responseCompleted, stored] using completed
  have quiet : Leaving bare next ([] ++ []) :=
    Leaving.quiet [] leaving stays grows (fun event counted => by simp [counted])
      (by simp) (by simp) (by simp) (by simp) (by simp)
  exact quiet.push (by simp) member (by simp [pending]) (by simp) (by simp [held?])
    (by simp) rfl

/-- The head of the first response is written. -/
theorem Leaving.writeNextResponse
    (leaving : Leaving bare c (.writeNextResponse :: below))
    (receiving : Receiving c (.writeNextResponse :: below))
    (executed : c.writeNextResponse = .next next frames) :
    Leaving bare next (frames ++ below) := by
  have between := receiving.between (by simp)
  have grows : Grows (fun event => !isCounted event) c.trace next.trace := by
    have asCode : code .writeNextResponse c = .next next frames := executed
    have emitted : Grows (emits .writeNextResponse) c.trace next.trace :=
      code_emits asCode
    refine emitted.imp fun event allowed => ?_
    cases event <;> first | rfl | cases allowed
  have quiet :
      ∀ called,
        Stays c next [.writeNextResponse] →
        next.parsing = c.parsing →
        (∀ frame ∈ called, isApart frame = true ∧ buffer frame = []) →
        Leaving bare next (called ++ below) := by
    intro called stays parsing isCalm
    refine Leaving.quiet [.writeNextResponse] leaving stays grows
      (fun event counted => by simp [counted]) leaving.urgent (by simp)
      (by simp [isNotice]) (fun frame member => (isCalm frame member).1) ?_
    intro buf shape nonempty
    rw [parsing]
    exact Or.inl (parsing_of_between [.writeNextResponse] between
      (fun frame member left => absurd (isCalm frame member).2 left) shape nonempty)
  obtain ⟨req, rest, given, shape, stored, writes⟩ :=
    writeNextResponse_next executed
  cases writes with
  | finish headed _ =>
      have steady := Steady.writesHead stored headed
      exact quiet _ (.of_steady steady) steady.parsing (by simp [isApart, buffer])
  | flush headed _ =>
      have steady :=
        (Steady.writesHead stored headed).trans
          (.writeChunks _ req (c.prepared given).tmpChunks)
      exact quiet [] (.of_steady steady) steady.parsing (by simp)
  | hold nonempty _ =>
      have steady :=
        (Steady.writeHead c req stored (completed_prepared c given)).trans
          (.startClosing _ req)
      have inDeque : req ∈ c.requests := by simp [shape]
      refine Leaving.push (quiet [] ?_ steady.parsing (by simp)) ?_ trivial
        (by simp [pending]) (by simp) ?_ (by simp) rfl
      · refine
          { nextId := by rw [← steady.nextId], silent := steady.silent
            requests := fun other _ inRest => Or.inl ?_
            parsing := fun other parsing => Or.inr ?_
            completed := fun other _ => steady.completed other }
        · rw [shape]
          exact List.mem_cons_of_mem _ inRest
        · have wasParsing : c.parsing = some other := by
            rw [← steady.parsing]
            exact parsing
          by_cases same : other = req
          · subst other
            have done := receiving.followed shape nonempty
            exact Or.inl (steady.silent (receiving.parsingDone req wasParsing done))
          · refine Or.inr ⟨wasParsing, fun inside => ?_⟩
            rw [shape] at inside
            exact (List.mem_cons.mp inside).resolve_left same
      · exact fun frame isNext =>
          leaving.urgent frame (List.mem_of_mem_head? isNext)
      · intro other isHeld left
        obtain rfl : req = other := by simpa [held?] using isHeld
        exact leaving.present inDeque (grows.old rfl left)

/-- `do_close` is called on a connection, with an error or without requests. -/
theorem Leaving.closes
    {cause : Cause}
    {middle : ServerConnection}
    {error : Option ErrorCode}
    {soft : Bool}
    (leaving : Leaving bare c (cause.stack ++ below))
    (between : Between c (cause.stack ++ below))
    (closes : Closes c cause middle error soft)
    (withError : error = none → bare ∨ c.requests = [])
    (calm : ∀ frame ∈ below, ¬ Urgent bare frame)
    (notFire : ∀ callback, (cause.stack ++ below).head? ≠ some (.fire callback))
    (executed : middle.doClose error soft = .next next frames) :
    Leaving bare next (frames ++ below) := by
  have reached :
      Steady c middle ∧ middle.trace = c.trace := by
    cases closes <;>
      refine ⟨.of_store ⟨rfl, rfl, rfl, fun _ => Iff.rfl, fun _ => Iff.rfl, ?_⟩ rfl, rfl⟩ <;>
      simp +contextual [Silent, canRead]
  have closed :
      Steady middle next ∧ next.trace = middle.trace ++ [.closed soft] ∧
        (soft = false → next.Silent) := by
    cases soft <;> cases executed <;>
      refine ⟨.of_store ⟨rfl, rfl, rfl, fun _ => Iff.rfl, fun _ => Iff.rfl, ?_⟩ rfl, rfl, ?_⟩ <;>
      simp +contextual [Silent, canRead, emit]
  obtain ⟨steady, sameTrace⟩ := reached
  obtain ⟨steadyNext, trace, silent⟩ := closed
  have whole := steady.trans steadyNext
  have grows : Grows (fun event => !isCounted event) c.trace next.trace := by
    rw [trace, sameTrace]
    exact Grows.snoc c.trace rfl
  have popped : Leaving bare next ([] ++ below) := by
    refine Leaving.quiet cause.stack leaving (.of_steady whole) grows
      (fun event counted => by simp [counted]) calm
      (fun callback isNext => absurd isNext (notFire callback)) ?_ (by simp) ?_
    · cases closes <;> simp [Cause.stack, isNotice]
    · intro buf shape nonempty
      rw [whole.parsing]
      exact Or.inl (parsing_of_between cause.stack between (by simp) shape nonempty)
  rw [(doClose_next executed).2]
  refine popped.push ?_ ?_ (by simp [pending]) (by simp) (by simp [held?]) ?_ rfl
  · exact fun frame isNext => calm frame (List.mem_of_mem_head? isNext)
  · cases error with
    | none =>
        rw [Foreseen, whole.requests]
        exact withError rfl
    | some _ =>
        trivial
  · rintro cause other same
    obtain ⟨rfl, rfl⟩ : error = cause ∧ soft = other := by simpa using same
    cases soft with
    | true =>
        simp [trace]
    | false =>
        exact silent rfl

/-- The steps that take a request out or in, or tell of it. -/
def isSpecial : Cause → Bool
  | .frame (.fire _) => true
  | .frame (.onRead _) => true
  | .frame (.requestError _ _) => true
  | .frame .writeNextResponse => true
  | .frame .finishRequest => true
  | .frame (.dropRequests _ _) => true
  | .frame (.dropNotify _ _) => true
  | .input (.upgrade _) => true
  | .input (.onRead _) => true
  | .input (.onReadError _) => true
  | _ => false

/-- Any other step calls code that tells nothing, or it closes the connection. -/
theorem Deed.plain
    {cause : Cause}
    (deed : Deed c cause next frames)
    (plain : isSpecial cause = false) :
    (∀ frame ∈ frames,
        isApart frame = true ∧
          (buffer frame ≠ [] → ∃ other ∈ cause.stack, buffer other ≠ [])) ∨
      ∃ middle error soft,
        Closes c cause middle error soft ∧
          middle.doClose error soft = .next next frames := by
  cases deed with
  | fires _ | parses _ | reports _ _ | writes _ _ _ | waits _ _ _ | leaves _ _ _
  | dropped _ | pops _ | finishesHeld _ _ | flushesHeld _ _ | notifies _
  | upgrades _ _ _ | receives _ _ | fails _ _ =>
      cases plain
  | closes closes executed =>
      exact Or.inr ⟨_, _, _, closes, executed⟩
  | delivers delivers =>
      left
      cases delivers <;> simp +contextual [isApart, isTold, buffer, Cause.stack]
  | goesOn goesOn =>
      left
      cases goesOn <;> simp +contextual [isApart, buffer, Cause.stack]
  | answers _ _ _ _ =>
      left
      split <;> simp [isApart, buffer]
  | sendsFinal _ sends =>
      left
      cases sends <;> simp [isApart, buffer]
  | _ =>
      left
      simp [isApart, buffer]

theorem Leaving.plain
    {cause : Cause}
    (leaving : Leaving bare c (cause.stack ++ below))
    (between : Between c (cause.stack ++ below))
    (plain : isSpecial cause = false)
    (steady : Steady c next)
    (grows : Grows may c.trace next.trace)
    (uncounted : ∀ event, isCounted event = true → may event = false)
    (deed : Deed c cause next frames)
    (withError :
      ∀ middle soft, Closes c cause middle none soft → bare ∨ c.requests = [])
    (calm : ∀ frame ∈ below, ¬ Urgent bare frame)
    (notFire : ∀ callback, (cause.stack ++ below).head? ≠ some (.fire callback)) :
    Leaving bare next (frames ++ below) := by
  rcases deed.plain plain with isCalm | ⟨middle, error, soft, closes, executed⟩
  · refine Leaving.quiet cause.stack leaving (.of_steady steady) grows uncounted calm
      (fun callback isNext => absurd isNext (notFire callback)) ?_
      (fun frame member => (isCalm frame member).1) ?_
    · intro frame member
      cases cause with
      | frame top =>
          obtain rfl := List.mem_singleton.mp member
          cases frame <;> first | rfl | cases plain
      | input called =>
          cases member
    · intro buf shape nonempty
      rw [steady.parsing]
      exact Or.inl (parsing_of_between cause.stack between
        (fun frame member => (isCalm frame member).2) shape nonempty)
  · refine leaving.closes between closes ?_ calm notFire executed
    rintro rfl
    exact withError middle soft closes

/-- The code of every frame keeps what is known of the requests that have left. -/
theorem Leaving.tick
    {frame : Frame}
    (leaving : Leaving bare c (frame :: below))
    (receiving : Receiving c (frame :: below))
    (running : isCallback frame = false)
    (executed : code frame c = .next next frames) :
    Leaving bare next (frames ++ below) := by
  by_cases special : isSpecial (.frame frame) = true
  · cases frame with
    | fire callback =>
        cases executed
        exact leaving.fires
    | onRead buf =>
        exact leaving.onReadLoop receiving executed
    | requestError req error =>
        exact leaving.reports executed
    | writeNextResponse =>
        exact leaving.writeNextResponse receiving executed
    | finishRequest =>
        exact leaving.finishes receiving executed
    | dropRequests error returns =>
        exact leaving.dropRequests receiving executed
    | dropNotify req error =>
        exact leaving.notifies (receiving.between (by simp)) executed
    | _ =>
        cases special
  · have plain : isSpecial (.frame frame) = false := Bool.eq_false_iff.mpr special
    have stays : movesRequests frame = false := by
      cases frame <;> first | rfl | cases plain
    refine Leaving.plain leaving (receiving.between ?_) plain
      (steady_code stays executed) (code_emits executed) ?_ (code_deed executed)
      ?_ leaving.urgent ?_
    · rintro buf shape
      obtain ⟨rfl, -⟩ := List.cons.inj shape
      cases plain
    · intro event counted
      cases frame <;> simp only [isSpecial, reduceCtorEq] at plain <;>
        cases event <;> first | rfl | cases counted
    · intro middle soft closes
      cases closes with
      | finish _ empty =>
          exact Or.inr empty
    · intro callback isNext
      obtain rfl : frame = .fire callback := by
        simpa [Cause.stack] using isNext
      cases plain

/-- A call or an event from outside keeps it. -/
theorem Leaving.input
    {input : Input}
    (leaving : Leaving bare c below)
    (receiving : Receiving c below)
    (boundary : machine.atBoundary below = true)
    (permitted : ClosesBarely bare ⟨c, below, none⟩ (.input input))
    (accepted : accept input below.head? c = some (.next next frames)) :
    Leaving bare next (frames ++ below) := by
  have between := boundary_between receiving boundary
  by_cases special : isSpecial (.input input) = true
  · cases input with
    | upgrade req =>
        exact leaving.upgrades receiving boundary (Option.some.inj accepted)
    | onRead buf =>
        obtain rfl : below = [] := accept_event rfl accepted
        simp only [accept, List.head?_nil] at accepted
        split at accepted
        · cases accepted
          exact Leaving.quiet [] leaving (.of_steady (.refl c)) (Grows.refl _)
            (fun _ _ => rfl) (by simp) (by simp) (by simp) (by simp [isApart])
            fun _ _ _ => Or.inr (by simpa [StaysOpen, shutsOrReads] using permitted.1)
        · cases accepted
    | onReadError error =>
        obtain rfl : below = [] := accept_event rfl accepted
        cases accept_deed accepted with
        | rests _ =>
            exact leaving
        | fails _ fails =>
            exact leaving.readFails fails
        | answers answers _ _ _ | closes answers _ =>
            cases answers
    | _ =>
        cases special
  · have plain : isSpecial (.input input) = false := Bool.eq_false_iff.mpr special
    have notRead : ∀ buf, input ≠ .onRead buf := by
      rintro buf rfl
      cases plain
    have notReadError : ∀ error, input ≠ .onReadError error := by
      rintro error rfl
      cases plain
    have notUpgrade : ∀ req, input ≠ .upgrade req := by
      rintro req rfl
      cases plain
    have stacked : Leaving bare c ((Cause.input input).stack ++ below) := leaving
    refine Leaving.plain stacked between plain
      (calls_accept accepted notUpgrade notRead notReadError).1
      (accept_emits accepted) ?_ (accept_deed accepted) ?_
      (leaving.calm (calm_of_boundary boundary)) ?_
    · intro event counted
      cases input <;> simp only [isSpecial, reduceCtorEq] at plain <;>
        cases event <;> first | rfl | cases counted
    · intro middle soft closes
      cases closes with
      | close _ =>
          exact Or.inl (permitted.2 rfl)
      | shutdown _ =>
          cases permitted.1
      | idle empty =>
          exact Or.inr empty
    · intro callback isNext
      obtain ⟨other, same⟩ := callback_of_boundary boundary isNext
      cases same

/-- An exception that reaches the application keeps it. -/
theorem Leaving.threw
    (leaving : Leaving bare c below)
    (receiving : Receiving c below)
    (boundary : machine.atBoundary below = true)
    (exception : Exception) :
    Leaving bare (c.emit (.threw exception)) below := by
  have between := boundary_between receiving boundary
  have grows :
      Grows (fun event => !isCounted event) c.trace (c.trace ++ [.threw exception]) :=
    Grows.snoc c.trace rfl
  have handed :
      ∀ frame ∈ ([] : List Frame),
        buffer frame ≠ [] → ∃ other ∈ ([] : List Frame), buffer other ≠ [] := by
    simp
  suffices kept : Leaving bare (c.emit (.threw exception)) ([] ++ below) from kept
  refine Leaving.quiet [] leaving (.of_steady (.emit c _)) grows
    (fun event counted => by simp [counted])
    (leaving.calm (calm_of_boundary boundary)) ?_ (by simp) (by simp)
    fun buf shape nonempty =>
      Or.inl (parsing_of_between [] between handed shape nonempty)
  intro callback isNext
  obtain ⟨other, same⟩ := callback_of_boundary boundary isNext
  cases same

/-- The request that has left is detached from the connection. -/
theorem Leaving.detached
    {stack : List Frame}
    {req : Nat}
    (leaving : Leaving bare c stack)
    (receiving : Receiving c stack)
    (left : .cleanedUp req ∈ c.trace) :
    ¬ c.Attached req := by
  intro attached
  obtain ⟨_, outside, notHeld⟩ := leaving.gone req left
  rcases receiving.located req attached with inside | isHeld
  · exact outside inside
  · exact notHeld isHeld

end Leaving

/-! ## Every run -/

theorem preserves_leaving (bare : Prop) :
    machine.Preserves (ClosesBarely bare) fun c stack =>
      Receiving c stack ∧ Leaving bare c stack := by
  apply preserves_of
  · intro frame rest c next frames running _ ⟨receiving, leaving⟩ executed
    exact ⟨receiving.tick executed, leaving.tick receiving running executed⟩
  · intro callback rest c ⟨receiving, leaving⟩
    refine ⟨receiving.ret, ?_⟩
    have between := receiving.between (by simp)
    suffices kept : Leaving bare c ([] ++ rest) from kept
    exact Leaving.quiet [.callback callback] leaving
      (.of_steady (.refl c)) (Grows.refl _) (fun _ _ => rfl) leaving.urgent (by simp)
      (by simp [isNotice]) (by simp) fun buf shape nonempty =>
        Or.inl (parsing_of_between [.callback callback] between (by simp) shape nonempty)
  · intro input stack c next frames boundary permitted ⟨receiving, leaving⟩ accepted
    exact ⟨receiving.input boundary accepted,
      leaving.input receiving boundary permitted accepted⟩
  · intro stack c exception boundary ⟨receiving, leaving⟩
    exact ⟨receiving.threw boundary, leaving.threw receiving boundary exception⟩

/-- A step that leaves the response of the request alone does not complete it. -/
theorem completed_of_response
    {c next : ServerConnection}
    {req : Nat}
    (same : (next.store req).response = (c.store req).response)
    (completed : next.Completed req) :
    c.Completed req := by
  simpa [Completed, ServerRequest.responseCompleted, same] using completed

theorem completed_headed
    {c : ServerConnection}
    {req : Nat}
    (other : Nat)
    {given : ServerResponse}
    (stored : (c.store req).response = some given)
    (completed :
      (c.writeHead req (c.prepared given).withoutTmpChunks).Completed other) :
    c.Completed other := by
  by_cases same : other = req
  · subst other
    have isGiven : given.completed = true := by
      rw [← completed_prepared c given, ← completed_writeHead c req]
      exact completed
    simpa [Completed, ServerRequest.responseCompleted, stored] using isGiven
  · simpa [Completed, writeHead, write, setResponse, same] using completed

theorem completed_writesHead
    {c middle : ServerConnection}
    {req : Nat}
    (other : Nat)
    {rest : List Nat}
    {given : ServerResponse}
    (stored : (c.store req).response = some given)
    (writesHead :
      WritesHead c req rest (c.prepared given).withoutTmpChunks middle)
    (completed : middle.Completed other) :
    c.Completed other := by
  apply completed_headed other stored
  cases writesHead with
  | keepAlive _ _ =>
      exact completed
  | closing _ =>
      simpa [Completed, store_startClosing] using completed

/-- No step completes the response of a request that has left. -/
theorem Deed.unfinished
    {c next : ServerConnection}
    {cause : Cause}
    {frames : List Frame}
    {req : Nat}
    (deed : Deed c cause next frames)
    (detached : ¬ c.Attached req)
    (isOld : req < c.nextId)
    (completed : next.Completed req) :
    c.Completed req := by
  cases deed with
  | answers _ attached _ _ =>
      have different : req ≠ _ := fun same => detached (same ▸ attached)
      simpa [Completed, takeResponse, emit, different] using completed
  | sendsChunk accepts sends =>
      have different : req ≠ _ := fun same => detached (same ▸ accepts.1)
      cases sends <;>
        simpa [Completed, emit, write, different] using completed
  | sendsFinal accepts sends =>
      have different : req ≠ _ := fun same => detached (same ▸ accepts.1)
      cases sends <;>
        simpa [Completed, emit, write, different] using completed
  | @marks marked response stored =>
      by_cases same : req = marked
      · subst req
        simpa [Completed, ServerRequest.responseCompleted, stored] using completed
      · simpa [Completed, same] using completed
  | writes shape stored writes =>
      cases writes with
      | finish writesHead _ =>
          exact completed_writesHead req stored writesHead completed
      | flush writesHead _ =>
          refine completed_writesHead req stored writesHead ?_
          simpa [Completed, store_writeChunks] using completed
      | hold _ notKept =>
          apply completed_headed req stored
          simpa [Completed, store_startClosing] using completed
  | @parses result _ _ _ admits =>
      have parses := parseRequest_parses c result
      have parsed :
          (next.store req).response =
            ((c.parseRequest result).1.store req).response := by
        cases admits with
        | routes _ _ _ =>
            by_cases same : req = (c.parseRequest result).2
            · rw [same]
              simp [setRequest]
            · simp [same]
        | _ =>
            rfl
      exact completed_of_response (parsed.trans (parses.stored isOld).2) completed
  | fails _ fails =>
      exact completed_of_response (fails.stored isOld).2 completed
  | waits _ _ _ | enables _ =>
      refine completed_of_response ?_ completed
      simp only [setRequest, Function.update_apply]
      split <;> simp_all
  | leaves _ _ _ =>
      exact (completed_cleanupRequest c _ _ req).mp completed
  | pops _ =>
      exact (completed_cleanupRequest c _ _ req).mp completed
  | @upgrades upgraded _ _ _ =>
      by_cases same : req = upgraded <;>
        simpa [Completed, cleanupRequest, emit, ServerRequest.responseCompleted, same]
          using completed
  | goesOn goesOn =>
      cases goesOn <;> exact completed
  | returns _ _ _ idles =>
      cases idles <;> exact completed
  | written _ _ idles =>
      cases idles <;> exact completed
  | closes closes executed =>
      have same : next.store = c.store := by
        cases executed
        cases closes <;> simp [emit, stopIdleTimer]
      simpa [Completed, same] using completed
  | flushesHeld _ _ =>
      simpa [Completed, store_writeChunks] using completed
  | _ =>
      exact completed

/-- No step completes the response of a request that has left, in no run. -/
theorem preserves_unfinished (bare : Prop) (req : Nat) (finished : Prop) :
    machine.Preserves (ClosesBarely bare) fun c stack =>
      (Receiving c stack ∧ Leaving bare c stack) ∧
        .cleanedUp req ∈ c.trace ∧ (c.Completed req → finished) := by
  apply preserves_of
  · intro frame rest c next frames running permitted ⟨known, left, unfinished⟩ executed
    refine ⟨(preserves_leaving bare).tick frame rest c next frames running permitted known
      executed, (code_emits executed).mem left, fun completed => unfinished ?_⟩
    exact (code_deed executed).unfinished (known.2.detached known.1 left)
      (known.2.gone req left).1 completed
  · intro callback rest c ⟨known, left, unfinished⟩
    exact ⟨(preserves_leaving bare).ret (.callback callback) rest c rfl known, left, unfinished⟩
  · intro input stack c next frames boundary permitted ⟨known, left, unfinished⟩ accepted
    refine ⟨(preserves_leaving bare).input input stack c next frames boundary permitted known
      accepted, (accept_emits accepted).mem left, fun completed => unfinished ?_⟩
    exact (accept_deed accepted).unfinished (known.2.detached known.1 left)
      (known.2.gone req left).1 completed
  · intro stack c exception boundary ⟨⟨receiving, leaving⟩, left, unfinished⟩
    exact ⟨⟨receiving.threw boundary, leaving.threw receiving boundary exception⟩,
      List.mem_append_left _ left, unfinished⟩

/-! ## What the application observes -/

/-- The application calls for a request that has left, and nothing happens. -/
structure Ignored (c : ServerConnection) (req : Nat) : Prop where
  responds : ∀ response, c.requestRespond req response = .next c []
  continues : c.requestSendContinue req = .next c []
  sends :
    ∀ send,
      c.responseSend req send = .next c [] ∨
        ∃ exception, c.responseSend req send = c.throwing exception

/--
A request leaves the deque at most once.  Its finish event is fired at that moment, it
is detached, and unless it is upgraded or has a complete response, its failure is told
once, by the event that fits it.  Only a request that is received in parts, and dropped
when the application closes the connection without an error, is told so by a part
without an error.
-/
structure DepartsOnce
    (config : ConnectionConfig)
    (labels : List Label)
    (final : Config)
    (req : Nat) : Prop where
  once : final.state.trace.count (.cleanedUp req) ≤ 1
  finishedOnce :
    final.state.trace.count (.fired (.finishEvent req)) ≤
      final.state.trace.count (.cleanedUp req)
  finished :
    ∀ earlier later,
      final.state.trace = earlier ++ .cleanedUp req :: later →
      Heeded req later ∨ final.stack.head? = some (.fire (.finishEvent req))
  detached :
    .cleanedUp req ∈ final.state.trace →
    ¬ final.state.Attached req ∧ Ignored final.state req
  told :
    ∀ first rest left,
      labels = first ++ rest →
      run? config first = some left →
      .cleanedUp req ∈ left.state.trace →
      ¬ left.state.Completed req →
      .upgraded req ∉ final.state.trace →
      final.stack = [] →
      ∀ earlier later,
        final.state.trace = earlier ++ .cleanedUp req :: later →
        later.countP (failed req) = 1 ∨
          .input (.close none) ∈ labels ∧
            later.countP (failed req) = 0 ∧
            .fired (.partialEvent req none) ∈ later
  fitting :
    ∀ first rest before callback,
      labels = first ++ rest →
      run? config first = some before →
      before.stack.head? = some (.fire callback) →
      isFailure req callback = true →
      .cleanedUp req ∈ before.state.trace →
      ∃ error, callback = before.state.failureNotice req error

theorem Leaving.ignored
    {bare : Prop}
    {c : ServerConnection}
    {stack : List Frame}
    {req : Nat}
    (leaving : Leaving bare c stack)
    (receiving : Receiving c stack)
    (left : .cleanedUp req ∈ c.trace) :
    Ignored c req := by
  have detached : (c.store req).connection = false := by
    simpa [Attached] using leaving.detached receiving left
  constructor
  · intro response
    simp [requestRespond, detached]
  · simp [requestSendContinue, detached]
  · intro send
    unfold responseSend
    split
    · exact Or.inl rfl
    · split
      · exact Or.inr ⟨_, rfl⟩
      · exact Or.inl (by simp [detached])

theorem leaving_initial (bare : Prop) (config : ConnectionConfig) :
    Leaving bare (initial config) [] where
  once := by simp [initial]
  gone := by simp [initial]
  parsing := by simp [initial]
  reading := by simp
  closing := by simp
  urgent := by simp
  head := by simp
  notifying := by simp
  heeded := by simp [initial]
  told := by simp [initial]

/-- The first part of a request has arrived, and the application closes the connection. -/
def closedPartway (error : Option ErrorCode) : List Label :=
  [.input (.onRead [.body {}]),
    .tick, .tick, .input (.enablePartial 0), .ret, .tick, .tick, .ret, .tick, .tick,
    .input (.close error), .tick, .tick, .ret, .tick, .tick, .ret, .tick, .ret]

end UniEventHttp.ServerConnection
