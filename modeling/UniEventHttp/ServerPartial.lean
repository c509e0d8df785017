import UniEventHttp.ServerDeeds
import UniEventHttp.ServerInert

namespace UniEventHttp.ServerConnection

/-!
# The calls of `partial_event`

`partial_event` is fired by `on_read`, by `request_error` and by
`drop_requests`.  None of them keeps a record of the last call for a request, so
there is only one if `on_read` does not go on with a request that has been
dropped, and if a refused upgrade request has been received to its end.
-/

/-! ## The property -/

/-- `partial_event` is about to be called for the request. -/
def CallsPartial
    (config : Config)
    (req : Nat)
    (error : Option ErrorCode) :
    Prop :=
  ∃ rest, config.stack = .fire (.partialEvent req error) :: rest

/-- The call carries an error, or the request is done. -/
def Terminal
    (c : ServerConnection)
    (req : Nat)
    (error : Option ErrorCode) :
    Prop :=
  error.isSome = true ∨ c.Done req

/-- In a run, `partial_event` is not called for a request after a terminal call. -/
def PartialProtocol (config : ConnectionConfig) (labels : List Label) : Prop :=
  ∀ first middle rest before after req error other,
    labels = (first ++ .tick :: middle) ++ .tick :: rest →
    run? config first = some before →
    CallsPartial before req error →
    Terminal before.state req error →
    run? config (first ++ .tick :: middle) = some after →
    ¬ CallsPartial after req other

/-! ## The condition -/

/--
`on_read` does not go on with an unfinished request in partial mode that has been
dropped, and refuses one as a pipelined upgrade only when it is received.
-/
def KeepsPartial (config : Config) (label : Label) : Prop :=
  let c := config.state
  match label, config.stack with
  | .tick, .routed req false _ :: _ =>
      (c.store req).partialMode = true → ¬ c.Dropped req
  | .tick, .onRead (result :: _) :: _ =>
      let parsed := (c.parseRequest result).1
      let req := (c.parseRequest result).2
      (parsed.store req).partialMode = true →
        ¬ c.Dropped req ∧
          (result.head?.isSome = true →
            1 < parsed.requests.length →
            (parsed.store req).headers.connection = "upgrade" →
            result.isDone = true)
  | _, _ => True

instance (config : Config) (label : Label) :
    Decidable (KeepsPartial config label) := by
  unfold KeepsPartial
  dsimp only
  split <;> infer_instance

/-! ## The invariant -/

/-- The request that a frame calls `partial_event` for, or may. -/
def tells : Frame → Option Nat
  | .fire (.partialEvent req _) => some req
  | .requestError req _ => some req
  | _ => none

/-- The dropped request that a frame is going to tell the application of. -/
def notified? : Frame → Option Nat
  | .dropNotify req _ => some req
  | _ => none

/-- The request has been dropped, in partial mode and unfinished. -/
structure Gone (c : ServerConnection) (stack : List Frame) (req : Nat) : Prop where
  unfinished : ¬ c.Done req
  dropped : c.Dropped req
  partialMode : (c.store req).partialMode = true
  left : req ∉ c.requests
  notHeld : req ∉ held stack
  notified : req ∉ stack.filterMap notified?

/-- `partial_event` will not be called again for the request. -/
structure Over (c : ServerConnection) (stack : List Frame) (req : Nat) : Prop where
  known : req < c.nextId
  silent : ∀ frame ∈ stack, tells frame ≠ some req
  ended :
    c.Done req ∧ (∀ done buf, .routed req done buf ∉ stack) ∨ Gone c stack req

/-- A call of `partial_event` that comes next may be made. -/
def Ready (c : ServerConnection) : Frame → List Frame → Prop
  | .fire (.partialEvent req none), rest =>
      Over c rest req ∨
        req < c.nextId ∧ ∃ done buf, rest = [.received req done buf]
  | .fire (.partialEvent req (some _)), rest => Over c rest req
  | .requestError req _, rest =>
      req < c.nextId ∧
        ((c.store req).partialMode = true → c.Done req) ∧
        ∀ frame ∈ rest, frame = .readIgnore
  | _, _ => True

/-- What the frames know of the requests that they are about to tell. -/
structure Reporting (c : ServerConnection) (stack : List Frame) : Prop where
  top : ∀ frame rest, stack = frame :: rest → Ready c frame rest
  below : ∀ frame ∈ stack.tail, tells frame = none
  notified :
    ∀ req ∈ stack.filterMap notified?,
      req < c.nextId ∧ c.Dropped req ∧ req ∉ c.requests ∧ req ∉ held stack
  once : (stack.filterMap notified?).Nodup
  routed :
    ∀ req done buf,
      .routed req done buf ∈ stack →
      req < c.nextId ∧ (done = true ↔ c.Done req)

theorem ready_of_untold
    {c : ServerConnection}
    {frame : Frame}
    (rest : List Frame)
    (untold : tells frame = none) :
    Ready c frame rest := by
  unfold Ready
  split
  · cases untold
  · cases untold
  · cases untold
  · trivial

/-! ## What a step remembers of a request -/

/-- The request is the same, as far as the calls of `partial_event` go. -/
structure Remembers (req : Nat) (c next : ServerConnection) : Prop where
  nextId : c.nextId ≤ next.nextId
  done : next.Done req ↔ c.Done req
  partialMode :
    (c.store req).partialMode = true → (next.store req).partialMode = true
  dropped : c.Dropped req → next.Dropped req

namespace Remembers

variable {req : Nat}

theorem refl (c : ServerConnection) : Remembers req c c :=
  ⟨Nat.le_refl _, Iff.rfl, id, id⟩

theorem trans
    {first second third : ServerConnection}
    (one : Remembers req first second)
    (two : Remembers req second third) :
    Remembers req first third where
  nextId := Nat.le_trans one.nextId two.nextId
  done := two.done.trans one.done
  partialMode isPartial := two.partialMode (one.partialMode isPartial)
  dropped dropped := two.dropped (one.dropped dropped)

theorem emit (c : ServerConnection) (event : Event) :
    Remembers req c (c.emit event) :=
  ⟨Nat.le_refl _, Iff.rfl, id, fun dropped => by
    unfold Dropped at dropped ⊢
    simp [ServerConnection.emit, dropped]⟩

theorem setRequest
    (c : ServerConnection)
    (other : Nat)
    (request : ServerRequest)
    (done : request.isDone = (c.store other).isDone)
    (isPartial :
      (c.store other).partialMode = true → request.partialMode = true) :
    Remembers req c (c.setRequest other request) := by
  refine ⟨Nat.le_refl _, ?_, ?_, id⟩
  · by_cases same : req = other <;> simp [Done, same, done]
  · by_cases same : req = other
    · simpa [same] using isPartial
    · simp [same]

theorem of_calm
    {c next : ServerConnection}
    (calm : Calm c next) :
    Remembers req c next := by
  induction calm with
  | refl c =>
      exact refl c
  | trans _ _ one two =>
      exact one.trans two
  | emit c _ =>
      exact emit c _
  | write c piece =>
      have wrote : Remembers req c (c.emit (.wrote piece)) := emit c _
      exact ⟨Nat.le_refl _, Iff.rfl, id, wrote.dropped⟩
  | readIgnore c =>
      have ignored : Remembers req c (c.emit .readIgnored) := emit c _
      exact ⟨Nat.le_refl _, Iff.rfl, id, ignored.dropped⟩
  | setRequest c other _ done _ _ isPartial =>
      exact setRequest c other _ done isPartial
  | flags c processed closing stopping =>
      exact ⟨Nat.le_refl _, Iff.rfl, id, id⟩

theorem cleanupRequest
    (c : ServerConnection)
    (other : Nat)
    (rest : List Nat) :
    Remembers req c (c.cleanupRequest other rest) := by
  have left : Remembers req c { c with requests := rest } :=
    ⟨Nat.le_refl _, Iff.rfl, id, id⟩
  have detached :
      Remembers req { c with requests := rest }
        (({ c with requests := rest } : ServerConnection).setRequest other
          { c.store other with connection := false }) :=
    setRequest _ other _ rfl id
  exact (left.trans detached).trans (emit _ _)

theorem idles
    {c next : ServerConnection}
    (idles : Idles c next) :
    Remembers req c next := by
  cases idles with
  | busy _ | already _ _ _ =>
      exact refl c
  | arms _ _ _ =>
      exact ⟨Nat.le_refl _, Iff.rfl, id, id⟩

theorem closes
    {c middle next : ServerConnection}
    {cause : Cause}
    {error : Option ErrorCode}
    {soft : Bool}
    {frames : List Frame}
    (closes : Closes c cause middle error soft)
    (executed : middle.doClose error soft = .next next frames) :
    Remembers req c next := by
  have reached : Remembers req c middle := by
    cases closes <;> exact ⟨Nat.le_refl _, Iff.rfl, id, id⟩
  have closed : Remembers req middle (middle.emit (.closed soft)) := emit _ _
  refine reached.trans (closed.trans ?_)
  cases soft with
  | true | false =>
      cases executed
      exact ⟨Nat.le_refl _, Iff.rfl, id, id⟩

theorem parses
    {c next : ServerConnection}
    {result : Parsed}
    {other : Nat}
    (parses : Parses c result next other)
    (different : req ≠ other) :
    Remembers req c next := by
  have stored := parses.others req different
  refine ⟨parses.nextId, by simp [Done, stored], by simp [stored], ?_⟩
  intro dropped
  unfold Dropped at dropped ⊢
  obtain ⟨_, _, ⟨_, _, _, trace⟩ | ⟨_, _, _, _, trace⟩⟩ := parses.origin <;>
    simp [trace, dropped]

theorem fails
    {c next : ServerConnection}
    {other : Nat}
    (fails : ReadFails c next other)
    (different : req ≠ other) :
    Remembers req c next := by
  have stored := fails.others req different
  refine ⟨fails.nextId, by simp [Done, stored], by simp [stored], ?_⟩
  intro dropped
  unfold Dropped at dropped ⊢
  rcases fails.origin with ⟨_, _, _, _, trace, _⟩ | ⟨_, _, _, _, trace, _⟩ <;>
    simp [trace, dropped]

theorem admits
    {parsed next : ServerConnection}
    {result : Parsed}
    {rest : List Parsed}
    {other : Nat}
    {frames : List Frame}
    (admits : Admits parsed result rest other next frames) :
    Remembers req parsed next := by
  cases admits with
  | error _ | headers _ | refuses _ _ _ | again _ _ =>
      exact refl parsed
  | routes _ _ _ =>
      exact setRequest parsed other _ rfl id

end Remembers

/-- A step remembers every request but the one that it reads. -/
theorem Deed.remembers
    {c next : ServerConnection}
    {cause : Cause}
    {frames : List Frame}
    {req : Nat}
    (deed : Deed c cause next frames)
    (unread : ¬ ReadsFor c cause req) :
    Remembers req c next := by
  cases deed with
  | rests _ | dropped _ | delivers _ | takesUp _ _ _ _ | notifies _
  | receives _ _ =>
      exact Remembers.refl c
  | fires _ | removes _ =>
      exact Remembers.emit c _
  | parses admits =>
      rename_i result rest
      have different : req ≠ (c.parseRequest result).2 := by
        rintro rfl
        exact unread (.parses result rest)
      exact (Remembers.parses (parseRequest_parses c result) different).trans
        (Remembers.admits admits)
  | goesOn goesOn =>
      cases goesOn with
      | unfinished | finishes _ | next _ _ _ =>
          exact Remembers.refl c
      | stops _ _ =>
          exact Remembers.of_calm (.readIgnore c)
  | reports _ _ | ignores =>
      exact Remembers.of_calm (.readIgnore c)
  | answers _ _ _ _ =>
      exact Remembers.of_calm (.takeResponse c _ _)
  | marks _ =>
      exact Remembers.of_calm (.setResponse c _ _)
  | writes shape stored writes =>
      cases writes with
      | finish writesHead _ =>
          exact Remembers.of_calm (.writesHead writesHead)
      | flush writesHead _ =>
          exact Remembers.of_calm
            ((Calm.writesHead writesHead).trans (.writeChunks _ _ _))
      | hold nonempty either =>
          rename_i front rest given
          have wrote : Remembers req c _ :=
            Remembers.of_calm
              ((Calm.writeHead c front
                (c.prepared given).withoutTmpChunks).trans
                (.startClosing _ front))
          exact ⟨wrote.nextId, wrote.done, wrote.partialMode, wrote.dropped⟩
  | waits _ _ _ =>
      exact Remembers.of_calm (.setRequest c _ rfl rfl rfl rfl id)
  | enables other =>
      exact Remembers.setRequest c other _ rfl fun _ => rfl
  | leaves _ _ _ =>
      exact Remembers.cleanupRequest c _ _
  | returns _ _ _ idles =>
      exact Remembers.idles idles
  | closes closes executed =>
      exact Remembers.closes closes executed
  | pops shape =>
      exact (Remembers.cleanupRequest c _ _).trans (Remembers.emit _ _)
  | finishesHeld _ _ =>
      exact ⟨Nat.le_refl _, Iff.rfl, id, id⟩
  | flushesHeld _ _ =>
      rename_i other chunks _ _
      have restored : Remembers req c { c with requests := [other] } :=
        ⟨Nat.le_refl _, Iff.rfl, id, id⟩
      exact restored.trans (Remembers.of_calm (.writeChunks _ _ _))
  | shutsDown _ =>
      have stopped :
          Remembers req c
            { c.stopIdleTimer with
              stream := { c.stream with listener := false } } :=
        ⟨Nat.le_refl _, Iff.rfl, id, id⟩
      exact stopped.trans (Remembers.emit _ _)
  | upgrades attached wants alone =>
      rename_i other
      have handed :
          Remembers req c
            { c with
              stream := { c.stream with listener := false }
              idleTimer := none } :=
        ⟨Nat.le_refl _, Iff.rfl, id, id⟩
      exact (handed.trans (Remembers.emit _ (.upgraded other))).trans
        (Remembers.cleanupRequest _ _ _)
  | stops _ =>
      exact Remembers.of_calm (.flags c _ id fun _ => rfl)
  | continues _ _ =>
      exact Remembers.of_calm (.write c _)
  | sendsChunk _ sends =>
      exact Remembers.of_calm (.sendsChunk sends)
  | sendsFinal _ sends =>
      exact Remembers.of_calm (.sendsFinal sends)
  | fails executed fails =>
      rename_i error other
      have ended :
          Remembers req c
            { c with stream := { c.stream with ended := true } } :=
        ⟨Nat.le_refl _, Iff.rfl, id, id⟩
      have different : req ≠ other := by
        rintro rfl
        exact unread (.fails fails)
      exact ended.trans (Remembers.fails fails different)
  | written _ _ idles =>
      have counted :
          Remembers req c
            { c with
              stream :=
                { c.stream with writeQueue := c.stream.writeQueue - 1 } } :=
        ⟨Nat.le_refl _, Iff.rfl, id, id⟩
      exact counted.trans (Remembers.idles idles)

/-! ## What a step does to the frames and the deque -/

section

variable
  {c next : ServerConnection}
  {cause : Cause}
  {frames : List Frame}
  {req : Nat}

/-- `drop_requests` is going to tell of the first request of the deque. -/
theorem Deed.notes
    (deed : Deed c cause next frames)
    (member : req ∈ frames.filterMap notified?) :
    ∃ rest error returns,
      c.requests = req :: rest ∧
        cause = .frame (.dropRequests error returns) ∧
        next = (c.cleanupRequest req rest).emit (.dropped req error) ∧
        frames =
          [.fire (.finishEvent req), .dropNotify req error,
            .dropRequests error returns] := by
  cases deed with
  | parses admits =>
      cases admits <;> simp [notified?] at member
  | delivers delivers =>
      cases delivers <;> simp [notified?] at member
  | goesOn goesOn =>
      cases goesOn <;> simp [notified?] at member
  | answers _ _ _ _ =>
      split at member <;> simp [notified?] at member
  | writes _ _ writes =>
      cases writes <;> simp [notified?] at member
  | pops shape =>
      rename_i first rest
      have isFirst : first = req := by simpa [notified?] using member
      subst isFirst
      exact ⟨_, _, _, shape, rfl, rfl, rfl⟩
  | closes _ executed =>
      cases (doClose_next executed).2
      simp [notified?] at member
  | sendsFinal _ sends =>
      cases sends <;> simp [notified?] at member
  | _ =>
      simp [notified?] at member

/-- Only the code that reads a request goes on with it. -/
theorem Deed.goesOnWith
    {done : Bool}
    {buf : List Parsed}
    (deed : Deed c cause next frames)
    (member : .routed req done buf ∈ frames) :
    ∃ result rest,
      cause = .frame (.onRead (result :: rest)) ∧
        req = (c.parseRequest result).2 ∧ done = result.isDone := by
  cases deed with
  | parses admits =>
      rename_i result rest
      cases admits <;> simp at member
      all_goals exact ⟨result, rest, rfl, member.1, member.2.1⟩
  | delivers delivers =>
      cases delivers <;> simp at member
  | goesOn goesOn =>
      cases goesOn <;> simp at member
  | answers _ _ _ _ =>
      split at member <;> simp at member
  | writes _ _ writes =>
      cases writes <;> simp at member
  | closes _ executed =>
      cases (doClose_next executed).2
      simp at member
  | sendsFinal _ sends =>
      cases sends <;> simp at member
  | _ =>
      simp at member

/-- The steps that push a frame that calls `partial_event`, or may. -/
inductive Tells (c : ServerConnection) : Cause → Nat → Prop where
  | read {cause : Cause} {req : Nat} : ReadsFor c cause req → Tells c cause req
  | delivers (req : Nat) (done : Bool) (buf : List Parsed) :
      Tells c (.frame (.routed req done buf)) req
  | reports (req : Nat) (error : ErrorCode) :
      Tells c (.frame (.requestError req error)) req
  | notifies (req : Nat) (error : Option ErrorCode) :
      ¬ c.Done req →
      Tells c (.frame (.dropNotify req error)) req

theorem Deed.pushes
    {frame : Frame}
    (deed : Deed c cause next frames)
    (member : frame ∈ frames)
    (told : tells frame = some req) :
    Tells c cause req := by
  have inTold : req ∈ frames.filterMap tells :=
    List.mem_filterMap.mpr ⟨frame, member, told⟩
  cases deed with
  | parses admits =>
      rename_i result rest
      have read : req = (c.parseRequest result).2 := by
        cases admits <;> simp [tells] at inTold
        all_goals exact inTold
      rw [read]
      exact .read (.parses result rest)
  | delivers delivers =>
      cases delivers <;> simp [tells] at inTold
      rw [inTold]
      exact .delivers _ _ _
  | goesOn goesOn =>
      cases goesOn <;> simp [tells] at inTold
  | reports other error =>
      have isTold : req = other := by
        split at inTold <;> simp [tells] at inTold
        exact inTold
      rw [isTold]
      exact .reports other error
  | answers _ _ _ _ =>
      split at inTold <;> simp [tells] at inTold
  | writes _ _ writes =>
      cases writes <;> simp [tells] at inTold
  | closes _ executed =>
      cases (doClose_next executed).2
      simp [tells] at inTold
  | notifies notifies =>
      rename_i other _ _
      cases notifies with
      | part unfinished _ =>
          have isTold : req = other := by
            simpa [tells] using inTold
          rw [isTold]
          exact .notifies _ _ unfinished
      | error _ _ | drop _ _ =>
          simp [tells] at inTold
  | sendsFinal _ sends =>
      cases sends <;> simp [tells] at inTold
  | fails executed fails =>
      rename_i _ other
      have isTold : req = other := by
        simpa [tells] using inTold
      rw [isTold]
      exact .read (.fails fails)
  | _ =>
      simp [tells] at inTold

/-! ## After the last call -/

/-- A request that is told of no more is not read. -/
theorem Over.unread
    {below : List Frame}
    (isOver : Over c (cause.stack ++ below) req)
    (receiving : Receiving c (cause.stack ++ below))
    (permitted : KeepsPartial ⟨c, cause.stack ++ below, none⟩ cause.label) :
    ¬ ReadsFor c cause req := by
  intro reads
  cases reads with
  | parses result rest =>
      obtain ⟨base, stored, ⟨parsing, rfl, _⟩ | ⟨_, _, isNext, _⟩⟩ :=
        (parseRequest_parses c result).origin
      · rcases isOver.ended with ⟨done, _⟩ | gone
        · have silent := receiving.parsingDone _ parsing done
          rcases receiving.buffered with between | ⟨_, _, reading⟩
          · have idle :=
              between (.onRead (result :: rest)) (by simp [Cause.stack])
                (by simp [buffer])
            rw [parsing] at idle
            cases idle
          · exact reading silent
        · have stays :=
            (permitted (by simpa [stored] using gone.partialMode)).1
          exact stays gone.dropped
      · have := isOver.known
        omega
  | fails fails =>
      rcases fails.origin with ⟨last, unfinished, _⟩ | ⟨_, isNext, _⟩
      · rcases isOver.ended with ⟨done, _⟩ | gone
        · exact unfinished done
        · exact gone.left (List.mem_of_getLast? last)
      · have known : req < c.nextId := isOver.known
        have isNext : req = c.nextId := isNext
        omega

/-- No step tells of a request that is told of no more. -/
theorem Over.untold
    {below : List Frame}
    (isOver : Over c (cause.stack ++ below) req)
    (receiving : Receiving c (cause.stack ++ below))
    (reporting : Reporting c (cause.stack ++ below))
    (permitted : KeepsPartial ⟨c, cause.stack ++ below, none⟩ cause.label)
    (deed : Deed c cause next frames)
    {frame : Frame}
    (member : frame ∈ frames) :
    tells frame ≠ some req := by
  intro told
  cases deed.pushes member told with
  | read reads =>
      exact isOver.unread receiving permitted reads
  | delivers _ done buf =>
      have inStack :
          .routed req done buf ∈
            (Cause.frame (.routed req done buf)).stack ++ below := by
        simp [Cause.stack]
      rcases isOver.ended with ⟨_, unrouted⟩ | gone
      · exact unrouted done buf inStack
      · cases done with
        | true =>
            exact gone.unfinished
              ((reporting.routed _ _ _ inStack).2.mp rfl)
        | false =>
            exact permitted gone.partialMode gone.dropped
  | reports _ error =>
      exact isOver.silent (.requestError req error) (by simp [Cause.stack]) rfl
  | notifies _ error unfinished =>
      rcases isOver.ended with ⟨done, _⟩ | gone
      · exact unfinished done
      · exact gone.notified (by simp [Cause.stack, notified?])

/-- No step that the condition permits brings a request back. -/
theorem Over.step
    {below : List Frame}
    (isOver : Over c (cause.stack ++ below) req)
    (receiving : Receiving c (cause.stack ++ below))
    (reporting : Reporting c (cause.stack ++ below))
    (permitted : KeepsPartial ⟨c, cause.stack ++ below, none⟩ cause.label)
    (deed : Deed c cause next frames) :
    Over next (frames ++ below) req := by
  have unread := isOver.unread receiving permitted
  have remembers := deed.remembers unread
  refine ⟨Nat.lt_of_lt_of_le isOver.known remembers.nextId, ?_, ?_⟩
  · intro frame member
    rcases List.mem_append.mp member with pushed | inBelow
    · exact isOver.untold receiving reporting permitted deed pushed
    · exact isOver.silent frame (List.mem_append_right _ inBelow)
  · rcases isOver.ended with ⟨done, unrouted⟩ | gone
    · refine Or.inl ⟨remembers.done.mpr done, fun isDone buf member => ?_⟩
      rcases List.mem_append.mp member with pushed | inBelow
      · obtain ⟨result, rest, rfl, rfl, _⟩ := deed.goesOnWith pushed
        exact unread (.parses result rest)
      · exact unrouted isDone buf (List.mem_append_right _ inBelow)
    · have notHeld := gone.notHeld
      have notified := gone.notified
      rw [held_append, List.mem_append, not_or] at notHeld
      rw [List.filterMap_append, List.mem_append, not_or] at notified
      refine Or.inr
        { unfinished := fun done => gone.unfinished (remembers.done.mp done)
          dropped := remembers.dropped gone.dropped
          partialMode := remembers.partialMode gone.partialMode
          left := fun member => ?_
          notHeld := fun member => ?_
          notified := fun member => ?_ }
      · rcases deed.joins member with old | isHeld | reads
        · exact gone.left old
        · exact notHeld.1 isHeld
        · exact unread reads
      · rw [held_append] at member
        rcases List.mem_append.mp member with pushed | inBelow
        · rcases deed.holds pushed with old | isHeld
          · exact gone.left old
          · exact notHeld.1 isHeld
        · exact notHeld.2 inBelow
      · rw [List.filterMap_append] at member
        rcases List.mem_append.mp member with pushed | inBelow
        · obtain ⟨_, _, _, shape, _⟩ := deed.notes pushed
          exact gone.left (by simp [shape])
        · exact notified.2 inBelow

/-! ## What the frames know -/

/-- A frame that neither tells of a request nor delivers one. -/
def isQuiet : Frame → Bool
  | .fire (.partialEvent _ _) => false
  | .requestError _ _ => false
  | .routed _ _ _ => false
  | .dropNotify _ _ => false
  | _ => true

theorem isQuiet_tells {frame : Frame} (quiet : isQuiet frame = true) :
    tells frame = none := by
  unfold tells
  split
  · cases quiet
  · cases quiet
  · rfl

theorem isQuiet_notified {frame : Frame} (quiet : isQuiet frame = true) :
    notified? frame = none := by
  unfold notified?
  split
  · cases quiet
  · rfl

theorem Reporting.nil (c : ServerConnection) : Reporting c [] :=
  ⟨nofun, nofun, nofun, List.nodup_nil, nofun⟩

/-- A frame is pushed that may tell or deliver. -/
theorem Reporting.push
    {frame : Frame}
    {stack : List Frame}
    (reporting : Reporting c stack)
    (untold : ∀ frame ∈ stack, tells frame = none)
    (ready : Ready c frame stack)
    (notNotified : notified? frame = none)
    (notHeld : held? frame = none)
    (delivers :
      ∀ req done buf,
        frame = .routed req done buf →
        req < c.nextId ∧ (done = true ↔ c.Done req)) :
    Reporting c (frame :: stack) where
  top other rest shape := by
    cases shape
    exact ready
  below := untold
  notified req member := by
    have sameHeld : held (frame :: stack) = held stack := by
      simp [held, notHeld]
    rw [sameHeld]
    refine reporting.notified req ?_
    simpa [notNotified] using member
  once := by
    simpa [notNotified] using reporting.once
  routed req done buf member := by
    rcases List.mem_cons.mp member with isTop | old
    · exact delivers req done buf isTop.symm
    · exact reporting.routed req done buf old

/-- `drop_requests` will tell of a request that it has dropped. -/
theorem Reporting.note
    {stack : List Frame}
    {error : Option ErrorCode}
    (reporting : Reporting c stack)
    (untold : ∀ frame ∈ stack, tells frame = none)
    (known : req < c.nextId)
    (dropped : c.Dropped req)
    (left : req ∉ c.requests)
    (notHeld : req ∉ held stack)
    (fresh : req ∉ stack.filterMap notified?) :
    Reporting c (.dropNotify req error :: stack) where
  top frame rest shape := by
    cases shape
    exact ready_of_untold _ rfl
  below := untold
  notified other member := by
    have sameHeld : held (.dropNotify req error :: stack) = held stack := rfl
    rw [sameHeld]
    simp only [List.filterMap_cons, notified?, List.mem_cons] at member
    rcases member with rfl | old
    · exact ⟨known, dropped, left, notHeld⟩
    · exact reporting.notified other old
  once := by
    simp only [List.filterMap_cons, notified?]
    exact List.nodup_cons.mpr ⟨fresh, reporting.once⟩
  routed other done buf member := by
    rcases List.mem_cons.mp member with isTop | old
    · cases isTop
    · exact reporting.routed other done buf old

/-- Only the top frame tells of a request. -/
theorem Reporting.untold
    {below : List Frame}
    (reporting : Reporting c (cause.stack ++ below))
    (fits : cause.Fits below) :
    ∀ frame ∈ below, tells frame = none :=
  fits.all_below (fun _ => rfl) reporting.below

/-- The frames below are left when the frames above have returned. -/
theorem Reporting.below_top
    {above below : List Frame}
    (reporting : Reporting c (above ++ below))
    (untold : ∀ frame ∈ below, tells frame = none) :
    Reporting c below where
  top frame rest shape := ready_of_untold rest (untold frame (by simp [shape]))
  below frame member := untold frame (List.mem_of_mem_tail member)
  notified req member := by
    obtain ⟨known, dropped, left, notHeld⟩ :=
      reporting.notified req (by
        rw [List.filterMap_append]
        exact List.mem_append_right _ member)
    rw [held_append, List.mem_append, not_or] at notHeld
    exact ⟨known, dropped, left, notHeld.2⟩
  once := by
    have once := reporting.once
    rw [List.filterMap_append] at once
    exact (List.nodup_append.mp once).2.1
  routed req done buf member :=
    reporting.routed req done buf (List.mem_append_right _ member)

/-- The quiet frames that a step pushes know nothing new. -/
theorem Reporting.after
    {below quiet : List Frame}
    (reporting : Reporting c (cause.stack ++ below))
    (fits : cause.Fits below)
    (deed : Deed c cause next frames)
    (unread : ∀ req, ¬ ReadsFor c cause req)
    (pushed : ∀ frame ∈ quiet, frame ∈ frames)
    (tacit : ∀ frame ∈ quiet, isQuiet frame = true) :
    Reporting next (quiet ++ below) := by
  have untoldBelow := reporting.untold fits
  have untold : ∀ frame ∈ quiet ++ below, tells frame = none := by
    intro frame member
    rcases List.mem_append.mp member with inQuiet | inBelow
    · exact isQuiet_tells (tacit frame inQuiet)
    · exact untoldBelow frame inBelow
  have sameNotified :
      (quiet ++ below).filterMap notified? = below.filterMap notified? := by
    rw [List.filterMap_append, List.filterMap_eq_nil_iff.mpr, List.nil_append]
    exact fun frame member => isQuiet_notified (tacit frame member)
  refine
    { top := fun frame rest shape =>
        ready_of_untold rest (untold frame (by simp [shape]))
      below := fun frame member => untold frame (List.mem_of_mem_tail member)
      notified := fun req member => ?_
      once := ?_
      routed := fun req done buf member => ?_ }
  · have remembers := deed.remembers (unread req)
    rw [sameNotified] at member
    have inStack : req ∈ (cause.stack ++ below).filterMap notified? := by
      rw [List.filterMap_append]
      exact List.mem_append_right _ member
    obtain ⟨known, dropped, left, notHeld⟩ := reporting.notified req inStack
    rw [held_append, List.mem_append, not_or] at notHeld
    refine ⟨Nat.lt_of_lt_of_le known remembers.nextId,
      remembers.dropped dropped, fun joined => ?_, fun isHeld => ?_⟩
    · rcases deed.joins joined with old | isHeld | reads
      · exact left old
      · exact notHeld.1 isHeld
      · exact unread req reads
    · rw [held_append] at isHeld
      rcases List.mem_append.mp isHeld with inQuiet | inBelow
      · obtain ⟨frame, isPushed, holds⟩ := List.mem_filterMap.mp inQuiet
        have holds : req ∈ held frames :=
          List.mem_filterMap.mpr ⟨frame, pushed frame isPushed, holds⟩
        rcases deed.holds holds with old | isHeld
        · exact left old
        · exact notHeld.1 isHeld
      · exact notHeld.2 inBelow
  · rw [sameNotified]
    have once := reporting.once
    rw [List.filterMap_append] at once
    exact (List.nodup_append.mp once).2.1
  · rcases List.mem_append.mp member with inQuiet | inBelow
    · cases tacit _ inQuiet
    · have remembers := deed.remembers (unread req)
      obtain ⟨known, isDone⟩ :=
        reporting.routed req done buf (List.mem_append_right _ inBelow)
      exact ⟨Nat.lt_of_lt_of_le known remembers.nextId,
        isDone.trans remembers.done.symm⟩

/-- What `on_read` has parsed is delivered or refused. -/
theorem Reporting.read
    {result : Parsed}
    {rest : List Parsed}
    (receiving : Receiving c [.onRead (result :: rest)])
    (permitted : KeepsPartial ⟨c, [.onRead (result :: rest)], none⟩ .tick)
    (admits :
      Admits (c.parseRequest result).1 result rest (c.parseRequest result).2
        next frames) :
    Reporting next frames := by
  have parses := parseRequest_parses c result
  obtain ⟨base, stored, origin⟩ := parses.origin
  have known : (c.parseRequest result).2 < (c.parseRequest result).1.nextId := by
    rcases origin with ⟨parsing, _, nextId, _⟩ | ⟨_, _, isNext, nextId, _⟩
    · have := (receiving.parsingNewest _ parsing).1
      omega
    · omega
  have done :
      (c.parseRequest result).1.Done (c.parseRequest result).2 ↔
        result.isDone = true := by
    simp [Done, stored]
  -- a refused request in partial mode is received, as the condition says
  have refuses :
      ∀ {error : ErrorCode} {below : List Frame},
        (((c.parseRequest result).1.store
            (c.parseRequest result).2).partialMode = true →
          result.isDone = true) →
        Reporting (c.parseRequest result).1 below →
        (∀ frame ∈ below, frame = .readIgnore) →
        Reporting (c.parseRequest result).1
          (.requestError (c.parseRequest result).2 error :: below) := by
    intro error below received reporting onlyIgnores
    refine reporting.push (fun frame member => ?_)
      ⟨known, fun isPartial => done.mpr (received isPartial), onlyIgnores⟩
      rfl rfl (by simp)
    rw [onlyIgnores frame member]
    rfl
  have delivers :
      ∀ {parsed : ServerConnection} {buf : List Parsed},
        (c.parseRequest result).2 < parsed.nextId →
        (parsed.Done (c.parseRequest result).2 ↔ result.isDone = true) →
        Reporting parsed
          [.routed (c.parseRequest result).2 result.isDone buf] := by
    intro parsed buf known done
    refine (Reporting.nil parsed).push (by simp) trivial rfl rfl ?_
    rintro other isDone rest same
    cases same
    exact ⟨known, done.symm⟩
  cases admits with
  | error isError =>
      refine refuses (fun _ => ?_) (Reporting.nil _) (by simp)
      rw [isError]
      rfl
  | headers _ =>
      exact Reporting.nil _
  | refuses hasHead behind wants =>
      refine refuses (fun isPartial =>
        (permitted isPartial).2 hasHead behind wants) ?_ (by simp)
      exact (Reporting.nil _).push (by simp) trivial rfl rfl (by simp)
  | again _ _ =>
      exact delivers known done
  | routes _ _ _ =>
      refine Reporting.push ?_ (by simp [tells]) trivial rfl rfl (by simp)
      exact delivers known (by simpa [Done] using done)

/-- The top frame is about to tell of a request, or knows nothing of it. -/
theorem Reporting.step
    {below : List Frame}
    (reporting : Reporting c (cause.stack ++ below))
    (receiving : Receiving c (cause.stack ++ below))
    (fits : cause.Fits below)
    (permitted : KeepsPartial ⟨c, cause.stack ++ below, none⟩ cause.label)
    (deed : Deed c cause next frames) :
    Reporting next (frames ++ below) := by
  have untold := reporting.untold fits
  have after :
      ∀ quiet : List Frame,
        (∀ req, ¬ ReadsFor c cause req) →
        (∀ frame ∈ quiet, frame ∈ frames) →
        (∀ frame ∈ quiet, isQuiet frame = true) →
        Reporting next (quiet ++ below) :=
    fun quiet unread pushed tacit =>
      reporting.after fits deed unread pushed tacit
  have all :
      (∀ req, ¬ ReadsFor c cause req) →
      (∀ frame ∈ frames, isQuiet frame = true) →
      Reporting next (frames ++ below) :=
    fun unread tacit => after frames unread (fun _ member => member) tacit
  cases deed with
  | parses admits =>
      have nothing : below = [] := receiving.alone rfl
      subst nothing
      rw [List.append_nil]
      exact Reporting.read receiving permitted admits
  | fails executed fails =>
      rename_i error other
      have nothing : below = [] := fits.2 rfl
      subst nothing
      refine (Reporting.nil next).push (by simp) ⟨?_, ?_, by simp⟩ rfl rfl (by simp)
      · rcases fails.origin with
          ⟨last, _, _, nextId, _⟩ | ⟨_, isNext, _, nextId, _⟩
        · have := receiving.requestsBelow other (List.mem_of_getLast? last)
          rw [nextId]
          exact this
        · omega
      · rcases fails.origin with ⟨_, _, _, _, _, stored⟩ | ⟨_, _, _, _, _, stored⟩
          <;> simp [Done, stored]
  | delivers delivers =>
      rename_i req done buf
      have known :=
        (reporting.routed req done buf (by simp [Cause.stack])).1
      cases delivers with
      | partialMode _ =>
          have nothing : below = [] := receiving.alone rfl
          subst nothing
          refine (after [.received req done buf] (by rintro _ ⟨⟩) (by simp)
            (by simp [isQuiet])).push (by simp [tells])
            (Or.inr ⟨known, done, buf, rfl⟩) rfl rfl (by simp)
      | whole _ _ | part _ _ =>
          exact all (by rintro _ ⟨⟩) (by simp [isQuiet])
  | reports req error =>
      obtain ⟨known, received, onlyIgnores⟩ :=
        reporting.top (.requestError req error) below rfl
      have returns :=
        after [.requestErrorReturn req] (by rintro _ ⟨⟩) (by simp) (by simp [isQuiet])
      by_cases isPartial : (c.store req).partialMode = true
      · rw [if_pos isPartial]
        refine returns.push (fun frame member => ?_) ⟨known, ?_, Or.inl ⟨?_, ?_⟩⟩
          rfl rfl (by simp)
        · rcases List.mem_cons.mp member with rfl | inBelow
          · rfl
          · exact untold frame inBelow
        · intro frame member
          rcases List.mem_cons.mp member with rfl | inBelow
          · simp [tells]
          · simp [untold frame inBelow]
        · exact received isPartial
        · intro done buf member
          rcases List.mem_cons.mp member with same | inBelow
          · cases same
          · cases onlyIgnores _ inBelow
      · exact all (by rintro _ ⟨⟩) (by simp [isQuiet, isPartial])
  | notifies notifies =>
      rename_i req error callback
      cases notifies with
      | part unfinished isPartial =>
          obtain ⟨known, dropped, left, notHeld⟩ :=
            reporting.notified req (by simp [Cause.stack, notified?])
          have once := reporting.once
          simp only [Cause.stack, List.cons_append, List.nil_append,
            List.filterMap_cons, notified?, List.nodup_cons] at once
          have isOver : Over c below req := by
            refine ⟨known, fun frame member => ?_, Or.inr
              ⟨unfinished, dropped, isPartial, left, notHeld, once.1⟩⟩
            simp [untold frame member]
          refine (after [] (by rintro _ ⟨⟩) (by simp) (by simp)).push untold ?_ rfl rfl (by simp)
          cases error with
          | none =>
              exact Or.inl isOver
          | some error =>
              exact isOver
      | error _ _ | drop _ _ =>
          exact all (by rintro _ ⟨⟩) (by simp [isQuiet])
  | pops shape =>
      rename_i error returns req rest
      have inDeque : req ∈ c.requests := by simp [shape]
      have loop :=
        after [.dropRequests error returns] (by rintro _ ⟨⟩) (by simp) (by simp [isQuiet])
      have untoldLoop :
          ∀ frame ∈ .dropRequests error returns :: below,
            tells frame = none := by
        intro frame member
        rcases List.mem_cons.mp member with rfl | inBelow
        · rfl
        · exact untold frame inBelow
      have sorted := receiving.sorted
      rw [shape, List.pairwise_cons] at sorted
      refine Reporting.push
        (loop.note untoldLoop (receiving.requestsBelow req inDeque) ?_ ?_ ?_ ?_)
        ?_ trivial rfl rfl (by simp)
      · simp [Dropped, emit, isDropOf]
      · intro member
        have := sorted.1 req member
        omega
      · exact fun isHeld => (receiving.heldApart req isHeld).2.1 inDeque
      · intro member
        exact (reporting.notified req member).2.2.1 inDeque
      · intro frame member
        rcases List.mem_cons.mp member with rfl | inLoop
        · rfl
        · exact untoldLoop frame inLoop
  | goesOn goesOn =>
      exact all (by rintro _ ⟨⟩) (by cases goesOn <;> simp [isQuiet])
  | answers answers _ _ _ =>
      refine all (by cases answers <;> rintro _ ⟨⟩) ?_
      split <;> simp [isQuiet]
  | writes _ _ writes =>
      exact all (by rintro _ ⟨⟩) (by cases writes <;> simp [isQuiet])
  | closes closes executed =>
      have shape := (doClose_next executed).2
      exact all (by cases closes <;> rintro _ ⟨⟩) (by simp [shape, isQuiet])
  | sendsFinal _ sends =>
      exact all (by rintro _ ⟨⟩) (by cases sends <;> simp [isQuiet])
  | rests _ =>
      exact reporting.below_top untold
  | removes shape =>
      refine all ?_ (by simp [isQuiet])
      rcases shape with rfl | ⟨⟨error, rfl⟩, _⟩ <;> rintro _ ⟨⟩
  | _ =>
      exact all (by rintro _ ⟨⟩) (by simp [isQuiet])

/-! ## Every run -/

theorem Over.emit
    {stack : List Frame}
    (isOver : Over c stack req)
    (event : Event) :
    Over (c.emit event) stack req := by
  refine ⟨isOver.known, isOver.silent, isOver.ended.imp_right fun gone => ?_⟩
  exact ⟨gone.unfinished, (Remembers.emit c event).dropped gone.dropped,
    gone.partialMode, gone.left, gone.notHeld, gone.notified⟩

/-- Application code runs above the frames. -/
theorem Over.called
    {stack : List Frame}
    (isOver : Over c stack req)
    (callback : Callback) :
    Over c (.callback callback :: stack) req := by
  refine ⟨isOver.known, fun frame member => ?_, ?_⟩
  · rcases List.mem_cons.mp member with rfl | inStack
    · simp [tells]
    · exact isOver.silent frame inStack
  · rcases isOver.ended with ⟨done, unrouted⟩ | gone
    · exact Or.inl ⟨done, by simpa using unrouted⟩
    · exact Or.inr ⟨gone.unfinished, gone.dropped, gone.partialMode, gone.left,
        gone.notHeld, gone.notified⟩

/-- The application code above the frames has returned. -/
theorem Over.ret
    {callback : Callback}
    {stack : List Frame}
    (isOver : Over c (.callback callback :: stack) req) :
    Over c stack req := by
  refine ⟨isOver.known,
    fun frame member => isOver.silent frame (List.mem_cons_of_mem _ member), ?_⟩
  rcases isOver.ended with ⟨done, unrouted⟩ | gone
  · exact Or.inl ⟨done, by simpa using unrouted⟩
  · exact Or.inr ⟨gone.unfinished, gone.dropped, gone.partialMode, gone.left,
      gone.notHeld, gone.notified⟩

theorem Reporting.ret
    {callback : Callback}
    {stack : List Frame}
    (reporting : Reporting c (.callback callback :: stack)) :
    Reporting c stack := by
  have split : Reporting c ([.callback callback] ++ stack) := reporting
  exact split.below_top reporting.below

theorem Reporting.emit
    {stack : List Frame}
    (reporting : Reporting c stack)
    (event : Event) :
    Reporting (c.emit event) stack := by
  refine { reporting with top := fun frame rest shape => ?_, notified := ?_ }
  · have ready := reporting.top frame rest shape
    unfold Ready at ready ⊢
    split
    · exact ready.imp_left fun isOver => isOver.emit event
    · exact Over.emit ready event
    · exact ready
    · trivial
  · intro req member
    obtain ⟨known, dropped, apart⟩ := reporting.notified req member
    exact ⟨known, (Remembers.emit c event).dropped dropped, apart⟩

/-- After a terminal call the request is told of no more. -/
theorem Ready.isOver
    {error : Option ErrorCode}
    {rest : List Frame}
    (ready : Ready c (.fire (.partialEvent req error)) rest)
    (terminal : Terminal c req error) :
    Over c rest req := by
  cases error with
  | some _ =>
      exact ready
  | none =>
      rcases ready with isOver | ⟨known, done, buf, rfl⟩
      · exact isOver
      · have isDone : c.Done req := by
          rcases terminal with isError | isDone
          · cases isError
          · exact isDone
        exact ⟨known, by simp [tells], Or.inl ⟨isDone, by simp⟩⟩

/-- Every permitted step knows what it tells. -/
theorem reporting_preserved :
    machine.Preserves KeepsPartial
      (fun c stack => Receiving c stack ∧ Reporting c stack) := by
  refine preserves_of_deeds ?_ ?_ ?_
  · exact fun cause below c next frames permitted fits receiving reporting deed =>
      reporting.step receiving fits permitted deed
  · exact fun callback rest c reporting => reporting.ret
  · exact fun input stack c exception _ _ _ reporting => reporting.emit _

/-- Every permitted step leaves a request alone that is told of no more. -/
theorem over_preserved (req : Nat) :
    machine.Preserves KeepsPartial
      (fun c stack =>
        Receiving c stack ∧ Reporting c stack ∧ Over c stack req) := by
  refine preserves_of_deeds ?_ ?_ ?_
  · rintro cause below c next frames permitted fits receiving
      ⟨reporting, isOver⟩ deed
    exact ⟨reporting.step receiving fits permitted deed,
      isOver.step receiving reporting permitted deed⟩
  · rintro callback rest c ⟨reporting, isOver⟩
    exact ⟨reporting.ret, isOver.ret⟩
  · rintro input stack c exception _ _ _ ⟨reporting, isOver⟩
    exact ⟨reporting.emit _, isOver.emit _⟩

end

/--
In a run in which `on_read` leaves the dropped requests alone, `partial_event` is
not called again after a terminal call.
-/
theorem partialProtocol_of_keepsPartial
    {config : ConnectionConfig}
    {labels : List Label}
    (keeps : machine.Guarded KeepsPartial (start config) labels) :
    PartialProtocol config labels := by
  intro first middle rest before after req error other shape ranFirst calls
    terminal ranMiddle callsAgain
  subst shape
  have keepsMiddle := keeps.front
  have begins :
      Receiving (start config).state (start config).stack ∧
        Reporting (start config).state (start config).stack :=
    ⟨receiving_initial config, Reporting.nil _⟩
  obtain ⟨receiving, reporting⟩ :=
    reporting_preserved.run begins keepsMiddle.front ranFirst
  obtain ⟨state, stack, fault⟩ := before
  obtain ⟨below, rfl⟩ := calls
  have isOver : Over state below req := (reporting.top _ _ rfl).isOver terminal
  have guarded := keepsMiddle.back ranFirst
  unfold run? at ranMiddle
  rw [CallMachine.Machine.run?_append] at ranMiddle
  unfold run? at ranFirst
  rw [ranFirst, Option.bind_some] at ranMiddle
  unfold CallMachine.Machine.run? at ranMiddle
  cases fault with
  | some reason =>
      cases ranMiddle
  | none =>
      -- the call itself, and then the rest of the run
      have called :
          Receiving (state.emit (.fired (.partialEvent req error)))
              (.callback (.partialEvent req error) :: below) ∧
            Reporting (state.emit (.fired (.partialEvent req error)))
                (.callback (.partialEvent req error) :: below) ∧
              Over (state.emit (.fired (.partialEvent req error)))
                (.callback (.partialEvent req error) :: below) req := by
        have stepped :=
          reporting_preserved.step _ .tick _ ⟨receiving, reporting⟩ guarded.1 rfl
        exact ⟨stepped.1, stepped.2, (isOver.emit _).called _⟩
      obtain ⟨rest, callsAgain⟩ := callsAgain
      have silent :=
        ((over_preserved req).run called (guarded.2 _ rfl) ranMiddle).2.2.silent
      exact silent (.fire (.partialEvent req other)) (by simp [callsAgain]) rfl

/-- A request is received in two parts. -/
def receivedInParts : List Label :=
  [.input (.onRead [.body {}]),
    .tick, .tick, .input (.enablePartial 0), .ret, .tick, .tick, .ret, .tick,
    .tick,
    .input (.onRead [.done {}]),
    .tick, .tick, .tick, .ret, .tick, .tick]

theorem partialProtocol_receivedInParts :
    PartialProtocol {} receivedInParts :=
  partialProtocol_of_keepsPartial (by decide)

/-- `route_event` asks for partial mode and closes the connection. -/
def closedOnRoute : List Label :=
  .input (.onRead [.body {}]) ::
    [.tick, .tick, .input (.enablePartial 0),
      .input (.close (some .operationCanceled)), .tick, .tick, .ret, .tick]

/-- `on_read` goes on with the request that has been dropped. -/
theorem closedOnRoute_not_partialProtocol :
    ¬ PartialProtocol {}
      ((closedOnRoute ++ .tick :: [.ret, .tick, .ret, .ret, .tick]) ++
        .tick :: []) := by
  intro protocol
  exact protocol closedOnRoute [.ret, .tick, .ret, .ret, .tick] [] _ _ 0
    (some .operationCanceled) none rfl rfl ⟨_, rfl⟩ (Or.inl rfl) rfl ⟨_, rfl⟩

end UniEventHttp.ServerConnection
