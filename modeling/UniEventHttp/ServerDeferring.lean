import UniEventHttp.ServerSteady

namespace UniEventHttp.ServerConnection

/-!
# Requests that are finished by the receiving side

A response that is complete before its request is fully received makes
`finish_request` wait, and `on_read` calls it again at the end of the request.
The request that waits is the first one, and nothing else works on its response
until `on_read` does.
-/

/-- The fully received request whose loop body goes on in this frame. -/
def full? : Frame → Option Nat
  | .routed req true _ => some req
  | .received req true _ => some req
  | _ => none

/-- The code that works on the response of the first request. -/
def serves : Frame → Bool
  | .writeNextResponse => true
  | .finishRequest => true
  | .finishReturn => true
  | .dropRequests _ (.writeNextResponse _ _) => true
  | _ => false

/-- The invariant of the requests that wait for their end. -/
structure Deferring (c : ServerConnection) (stack : List Frame) : Prop where
  waiting : ∀ req, c.Waiting req → c.Completed req
  /-- A request that waits for its end is the first one. -/
  place : ∀ req ∈ c.requests, c.Waiting req → c.requests.head? = some req
  received : ∀ frame ∈ stack, ∀ req ∈ full? frame, c.Done req
  /-- Nothing works on the response of a request that `on_read` will finish. -/
  kept :
    ∀ frame ∈ stack,
      ∀ req ∈ full? frame,
        c.Waiting req →
        c.requests.head? = some req ∧
          ∀ other ∈ stack, serves other = false

theorem Deferring.below
    {c : ServerConnection}
    {below : List Frame}
    (above : List Frame)
    (deferring : Deferring c (above ++ below)) :
    Deferring c below where
  waiting := deferring.waiting
  place := deferring.place
  received frame member :=
    deferring.received frame (List.mem_append_right _ member)
  kept frame member req isFull isWaiting := by
    obtain ⟨isHead, idle⟩ :=
      deferring.kept frame (List.mem_append_right _ member) req isFull isWaiting
    exact ⟨isHead, fun other inBelow =>
      idle other (List.mem_append_right _ inBelow)⟩

/-- Other frames are pushed, of which none works on a request that `on_read` will finish. -/
theorem Deferring.push
    {c : ServerConnection}
    {below : List Frame}
    (frames : List Frame)
    (deferring : Deferring c below)
    (others : ∀ frame ∈ frames, full? frame = none)
    (idle :
      ∀ frame ∈ below, ∀ req ∈ full? frame,
        c.Waiting req → ∀ other ∈ frames, serves other = false) :
    Deferring c (frames ++ below) := by
  have fullBelow :
      ∀ frame ∈ frames ++ below, ∀ req ∈ full? frame, frame ∈ below := by
    intro frame member req isFull
    refine (List.mem_append.mp member).resolve_left ?_
    intro isNew
    simp [others frame isNew] at isFull
  refine
    { waiting := deferring.waiting, place := deferring.place
      received := ?_, kept := ?_ }
  · intro frame member req isFull
    exact deferring.received frame (fullBelow frame member req isFull) req
      isFull
  · intro frame member req isFull isWaiting
    have isBelow := fullBelow frame member req isFull
    obtain ⟨isHead, oldIdle⟩ :=
      deferring.kept frame isBelow req isFull isWaiting
    refine ⟨isHead, ?_⟩
    intro other inStack
    rcases List.mem_append.mp inStack with isNew | isOld
    · exact idle frame isBelow req isFull isWaiting other isNew
    · exact oldIdle other isOld

/-- The invariant in a state that takes nothing back. -/
theorem Deferring.steady
    {c next : ServerConnection}
    {stack : List Frame}
    (deferring : Deferring c stack)
    (steady : Steady c next) :
    Deferring next stack where
  waiting req isWaiting :=
    steady.completed req (deferring.waiting req ((steady.waiting req).mp isWaiting))
  place req member isWaiting := by
    rw [steady.requests] at member ⊢
    exact deferring.place req member ((steady.waiting req).mp isWaiting)
  received frame member req isFull :=
    (steady.done req).mpr (deferring.received frame member req isFull)
  kept frame member req isFull isWaiting := by
    rw [steady.requests]
    exact deferring.kept frame member req isFull
      ((steady.waiting req).mp isWaiting)

/-- While a response is worked on `on_read` is not going to finish a request. -/
theorem Deferring.not_waiting
    {c : ServerConnection}
    {top : Frame}
    {below : List Frame}
    (deferring : Deferring c (top :: below))
    (working : serves top = true)
    {frame : Frame}
    (member : frame ∈ below)
    {req : Nat}
    (isFull : req ∈ full? frame) :
    ¬ c.Waiting req := by
  intro isWaiting
  have idle :=
    (deferring.kept frame (List.mem_cons_of_mem _ member) req isFull isWaiting).2
      top (by simp)
  simp [working] at idle

/-- Plain frames and calls of the application may be pushed. -/
theorem Deferring.pushed
    {c next : ServerConnection}
    {frames stack : List Frame}
    (deferring : Deferring c stack)
    (steady : Steady c next)
    (pushed : ∀ frame ∈ frames, Pushed c frame) :
    Deferring next (frames ++ stack) := by
  apply (deferring.steady steady).push
  · intro frame member
    rcases pushed frame member with plain | ⟨rfl | rfl, _⟩
    · unfold isPlainFrame at plain
      split at plain <;> simp_all [full?]
    · rfl
    · rfl
  · intro frame member req isFull isWaiting other isNew
    rcases pushed other isNew with plain | ⟨_, front, isFront, notCompleted⟩
    · unfold isPlainFrame at plain
      split at plain <;> simp_all [serves]
    · -- the first request is the one that waits, and its response is complete
      have wasWaiting := (steady.waiting req).mp isWaiting
      have isHead := (deferring.kept frame member req isFull wasWaiting).1
      rw [isFront] at isHead
      have same : front = req := Option.some.inj isHead
      exact (notCompleted (same ▸ deferring.waiting req wasWaiting)).elim

/-- A request leaves the deque that no frame is going to finish. -/
theorem Deferring.cleanup
    {c : ServerConnection}
    {stack : List Frame}
    {req : Nat}
    {rest : List Nat}
    (deferring : Deferring c stack)
    (sorted : c.requests.Pairwise (· < ·))
    (shape : c.requests = req :: rest)
    (free : ∀ frame ∈ stack, req ∈ full? frame → ¬ c.Waiting req) :
    Deferring (c.cleanupRequest req rest) stack := by
  have same :
      ∀ other,
        ((c.cleanupRequest req rest).Completed other ↔ c.Completed other) ∧
          ((c.cleanupRequest req rest).Waiting other ↔ c.Waiting other) ∧
          ((c.cleanupRequest req rest).Done other ↔ c.Done other) := by
    intro other
    by_cases isReq : other = req <;>
      simp [Completed, ServerRequest.responseCompleted, Waiting,
        Done, cleanupRequest, emit, setRequest, isReq]
  refine { waiting := ?_, place := ?_, received := ?_, kept := ?_ }
  · intro other isWaiting
    exact (same other).1.mpr
      (deferring.waiting other ((same other).2.1.mp isWaiting))
  · intro other member isWaiting
    have inOld : other ∈ c.requests := by
      rw [shape]
      exact List.mem_cons_of_mem _ member
    exact (not_head_of_rest sorted shape member
      (deferring.place other inOld ((same other).2.1.mp isWaiting))).elim
  · intro frame member other isFull
    exact (same other).2.2.mpr (deferring.received frame member other isFull)
  · intro frame member other isFull isWaiting
    -- the waiting request would be the one that leaves
    have wasWaiting := (same other).2.1.mp isWaiting
    have isHead := (deferring.kept frame member other isFull wasWaiting).1
    rw [shape] at isHead
    have isReq : req = other := by simpa using isHead
    subst req
    exact (free frame member isFull wasWaiting).elim

/-- `write_next_response` takes the first request out of the deque, or puts it back. -/
theorem Deferring.redeque
    {c : ServerConnection}
    {below : List Frame}
    (deferring : Deferring c below)
    (requests : List Nat)
    (place :
      ∀ req ∈ requests, c.Waiting req → requests.head? = some req)
    (notWaiting :
      ∀ frame ∈ below, ∀ req ∈ full? frame, ¬ c.Waiting req) :
    Deferring { c with requests := requests } below where
  waiting := deferring.waiting
  place := place
  received := deferring.received
  kept frame member req isFull isWaiting :=
    (notWaiting frame member req isFull isWaiting).elim

/-! ## Every step -/

theorem Deferring.parse
    {c next : ServerConnection}
    {result : Parsed}
    {rest frames : List Frame}
    {buf : List Parsed}
    (receiving : Receiving c (.onRead (result :: buf) :: rest))
    (deferring : Deferring c (.onRead (result :: buf) :: rest))
    (executed : c.onReadLoop (result :: buf) = .next next frames) :
    Deferring next (frames ++ rest) := by
  have alone := receiving.alone rfl
  subst rest
  obtain ⟨parsed, req, parses, reads⟩ := onReadLoop_next executed
  obtain ⟨base, stored, origin⟩ := parses.origin
  have reqDone : parsed.Done req ↔ result.isDone = true := by
    simp [Done, stored]
  have isWaiting :
      ∀ other,
        parsed.Waiting other → c.Waiting other := by
    intro other waits
    by_cases same : other = req
    · subst other
      rcases origin with ⟨_, rfl, _⟩ | ⟨_, rfl, _⟩
      · simpa [Waiting, stored] using waits
      · simp [Waiting, stored] at waits
    · simpa [Waiting, parses.others other same] using waits
  have isCompleted :
      ∀ other, parsed.Waiting other → parsed.Completed other := by
    intro other waits
    have completed := deferring.waiting other (isWaiting other waits)
    by_cases same : other = req
    · subst other
      rcases origin with ⟨_, rfl, _⟩ | ⟨_, rfl, _⟩
      · simpa [Completed, ServerRequest.responseCompleted, stored]
          using completed
      · simp [Waiting, stored] at waits
    · simpa [Completed, parses.others other same] using completed
  have place :
      ∀ other ∈ parsed.requests,
        parsed.Waiting other → parsed.requests.head? = some other := by
    intro other member waits
    have wasWaiting := isWaiting other waits
    have old : other ∈ c.requests → parsed.requests.head? = some other := by
      intro inOld
      have isHead := deferring.place other inOld wasWaiting
      rw [parses.requests]
      split
      · exact isHead
      · simp [isHead]
    rw [parses.requests] at member
    split at member
    · exact old member
    · rename_i notLast
      rcases List.mem_append.mp member with inOld | isNew
      · exact old inOld
      · have same : other = req := by simpa using isNew
        subst other
        rcases origin with ⟨parsing, _⟩ | ⟨_, rfl, _⟩
        · rcases (receiving.reading parsing).2 with inOld | empty
          · exact old inOld
          · simp [parses.requests, empty]
        · simp [Waiting, stored] at waits
  have headOfParsed :
      parsed.Waiting req → parsed.requests.head? = some req := by
    intro waits
    apply place req _ waits
    rw [parses.requests]
    split
    · rename_i last
      exact List.mem_of_getLast? last
    · simp
  have empty : Deferring parsed [] :=
    { waiting := isCompleted, place := place
      received := by simp, kept := by simp }
  have goesOn :
      Deferring parsed
        [.routed req result.isDone (if result.isDone then buf else [])] := by
    refine { empty with received := ?_, kept := ?_ }
    · intro frame member other isFull
      simp only [List.mem_singleton] at member
      subst frame
      cases done : result.isDone <;> simp [full?, done] at isFull
      subst other
      exact reqDone.mpr done
    · intro frame member other isFull waits
      simp only [List.mem_singleton] at member
      subst frame
      cases done : result.isDone <;> simp [full?, done] at isFull
      subst other
      exact ⟨headOfParsed waits, by simp [serves]⟩
  cases reads with
  | error _ | upgrade _ _ =>
      exact empty.push _ (by simp [full?]) (by simp)
  | headers _ =>
      exact empty
  | again _ _ =>
      simpa using goesOn
  | route _ _ =>
      have routed :
          Steady parsed
            (parsed.setRequest req
              { parsed.store req with routed := true }) := by
        refine
          { toKept := Kept.setRequest parsed req _ rfl rfl
            responded := ?_, completed := ?_, waiting := ?_ } <;>
          intro other <;> by_cases same : other = req <;>
          simp [Responded, Completed, ServerRequest.responseCompleted,
            Waiting, same]
      have fired := (goesOn.steady routed).push
        [.fire (.routeEvent req)] (by simp [full?]) (by simp [serves])
      simpa using fired

/-- The receiving callbacks are fired with the loop body below them. -/
theorem Deferring.receive
    {c : ServerConnection}
    {req : Nat}
    {done : Bool}
    {buf : List Parsed}
    {rest : List Frame}
    (fired : List Frame)
    (deferring : Deferring c (.routed req done buf :: rest))
    (fires : ∀ frame ∈ fired, ∃ callback, frame = .fire callback) :
    Deferring c (fired ++ .received req done buf :: rest) := by
  have goesOn : Deferring c (.received req done buf :: rest) := by
    have sameFull :
        full? (.received req done buf) = full? (.routed req done buf) := by
      cases done <;> rfl
    refine
      { waiting := deferring.waiting, place := deferring.place
        received := ?_, kept := ?_ }
    · intro frame member other isFull
      rcases List.mem_cons.mp member with rfl | inRest
      · rw [sameFull] at isFull
        exact deferring.received _ (by simp) other isFull
      · exact deferring.received frame (List.mem_cons_of_mem _ inRest) other
          isFull
    · intro frame member other isFull isWaiting
      have wasKept :
          c.requests.head? = some other ∧
            ∀ below ∈ Frame.routed req done buf :: rest,
              serves below = false := by
        rcases List.mem_cons.mp member with rfl | inRest
        · rw [sameFull] at isFull
          exact deferring.kept _ (by simp) other isFull isWaiting
        · exact deferring.kept frame (List.mem_cons_of_mem _ inRest) other
            isFull isWaiting
      refine ⟨wasKept.1, ?_⟩
      intro below inStack
      rcases List.mem_cons.mp inStack with rfl | inRest
      · rfl
      · exact wasKept.2 below (List.mem_cons_of_mem _ inRest)
  apply goesOn.push
  · intro frame member
    obtain ⟨callback, rfl⟩ := fires frame member
    rfl
  · intro _ _ _ _ _ frame member
    obtain ⟨callback, rfl⟩ := fires frame member
    rfl

theorem Deferring.writeNextResponse
    {c next : ServerConnection}
    {below frames : List Frame}
    (receiving : Receiving c (.writeNextResponse :: below))
    (deferring : Deferring c (.writeNextResponse :: below))
    (executed : c.writeNextResponse = .next next frames) :
    Deferring next (frames ++ below) := by
  have notWaiting :
      ∀ frame ∈ below, ∀ req ∈ full? frame, ¬ c.Waiting req :=
    fun _ member _ isFull => deferring.not_waiting rfl member isFull
  have popped : Deferring c below := deferring.below [_]
  obtain ⟨req, rest, given, shape, stored, outcome⟩ :=
    writeNextResponse_next executed
  have served :
      ∀ middle frames,
        Steady c middle →
        (∀ frame ∈ frames, full? frame = none) →
        Deferring middle (frames ++ below) := by
    intro middle frames steady callees
    refine (popped.steady steady).push _ callees ?_
    intro frame member other isFull isWaiting
    exact (notWaiting frame member other isFull
      ((steady.waiting other).mp isWaiting)).elim
  cases outcome with
  | finish writesHead _ =>
      exact served _ _ (Steady.writesHead stored writesHead)
        (by simp [full?])
  | flush writesHead _ =>
      exact served _ _
        ((Steady.writesHead stored writesHead).trans
          (Steady.writeChunks _ _ _))
        (by simp)
  | hold nonempty _ =>
      have steady :
          Steady c
            ((c.writeHead req (c.prepared given).withoutTmpChunks).startClosing
              req) :=
        (Steady.writeHead c req stored (completed_prepared c given)).trans
          (Steady.startClosing _ req)
      have redequed := (popped.steady steady).redeque rest
        (fun other member isWaiting => by
          have inOld : other ∈ c.requests := by
            rw [shape]
            exact List.mem_cons_of_mem _ member
          exact (not_head_of_rest receiving.sorted shape member
            (deferring.place other inOld
              ((steady.waiting other).mp isWaiting))).elim)
        (fun frame member other isFull isWaiting =>
          notWaiting frame member other isFull
            ((steady.waiting other).mp isWaiting))
      refine redequed.push _ (by simp [full?]) ?_
      intro frame member other isFull isWaiting
      exact (notWaiting frame member other isFull
        ((steady.waiting other).mp isWaiting)).elim

theorem Deferring.finishRequest
    {c next : ServerConnection}
    {below frames : List Frame}
    (receiving : Receiving c (.finishRequest :: below))
    (deferring : Deferring c (.finishRequest :: below))
    (executed : c.finishRequest = .next next frames) :
    Deferring next (frames ++ below) := by
  have notWaiting :
      ∀ frame ∈ below, ∀ req ∈ full? frame, ¬ c.Waiting req :=
    fun _ member _ isFull => deferring.not_waiting rfl member isFull
  have popped : Deferring c below := deferring.below [_]
  obtain ⟨req, rest, shape, completed, ⟨notDone, rfl, rfl⟩ | ⟨_, rfl, rfl⟩⟩ :=
    finishRequest_next executed
  · -- the request waits for its end
    have waits :
        ∀ other,
          (c.setRequest req
            { c.store req with finishOnReceive := true }).Waiting other ↔
            other = req ∨ c.Waiting other := by
      intro other
      by_cases same : other = req <;> simp [Waiting, same]
    have kept :
        Kept c
          (c.setRequest req { c.store req with finishOnReceive := true }) :=
      Kept.setRequest c req _ rfl rfl
    have same :
        ∀ other,
          (c.setRequest req
              { c.store req with finishOnReceive := true }).Completed other ↔
            c.Completed other := by
      intro other
      by_cases isReq : other = req <;>
        simp [Completed, ServerRequest.responseCompleted, isReq]
    refine { waiting := ?_, place := ?_, received := ?_, kept := ?_ }
    · intro other isWaiting
      apply (same other).mpr
      rcases (waits other).mp isWaiting with rfl | wasWaiting
      · exact completed
      · exact popped.waiting other wasWaiting
    · intro other member isWaiting
      rw [kept.requests] at member ⊢
      rcases (waits other).mp isWaiting with rfl | wasWaiting
      · simp [shape]
      · exact popped.place other member wasWaiting
    · intro frame member other isFull
      exact (kept.done other).mpr (popped.received frame member other isFull)
    · intro frame member other isFull isWaiting
      rcases (waits other).mp isWaiting with rfl | wasWaiting
      · exact (notDone (popped.received frame member other isFull)).elim
      · exact (notWaiting frame member other isFull wasWaiting).elim
  · have free : ∀ frame ∈ below, req ∈ full? frame → ¬ c.Waiting req :=
      fun frame member isFull => notWaiting frame member req isFull
    refine (popped.cleanup receiving.sorted shape free).push _ (by simp [full?]) ?_
    intro frame member other isFull isWaiting
    refine (notWaiting frame member other isFull ?_).elim
    by_cases isReq : other = req <;>
      simpa [Waiting, cleanupRequest, emit, setRequest, isReq] using isWaiting

theorem Deferring.dropRequests
    {c next : ServerConnection}
    {error : Option ErrorCode}
    {returns : DropReturn}
    {below frames : List Frame}
    (receiving : Receiving c (.dropRequests error returns :: below))
    (deferring : Deferring c (.dropRequests error returns :: below))
    (permitted :
      ∀ req ∈ c.requests.head?,
        ∀ frame ∈ below, req ∈ full? frame → ¬ c.Waiting req)
    (executed : c.dropRequests error returns = .next next frames) :
    Deferring next (frames ++ below) := by
  have popped : Deferring c below := deferring.below [_]
  unfold ServerConnection.dropRequests at executed
  split at executed
  · rename_i req rest shape
    cases executed
    have free :
        ∀ frame ∈ Frame.dropRequests error returns :: below,
          req ∈ full? frame → ¬ c.Waiting req := by
      intro frame member isFull
      rcases List.mem_cons.mp member with rfl | inBelow
      · cases isFull
      · exact permitted req (by simp [shape]) frame inBelow isFull
    have cleaned :=
      (deferring.cleanup receiving.sorted shape free).steady
        (Steady.emit _ (.dropped req error))
    exact cleaned.push
      [.fire (.finishEvent req), .dropNotify req error]
      (by simp [full?]) (by simp [serves])
  · rename_i empty
    split at executed
    · cases executed
      exact popped
    · cases executed
      exact (popped.steady (Steady.emit c .removed)).push [_]
        (by simp [full?]) (by simp [serves])
    · rename_i req tmpChunks
      have notWaiting :
          ∀ frame ∈ below, ∀ other ∈ full? frame, ¬ c.Waiting other :=
        fun _ member _ isFull => deferring.not_waiting rfl member isFull
      have restored : Deferring { c with requests := [req] } below :=
        popped.redeque [req]
          (fun other member _ => by
            have same : other = req := by simpa using member
            simp [same])
          notWaiting
      unfold flushResponse at executed
      split at executed
      · cases executed
        refine restored.push _ (by simp [full?]) ?_
        intro frame member other isFull isWaiting
        exact (notWaiting frame member other isFull isWaiting).elim
      · cases executed
        exact restored.steady (Steady.writeChunks _ req tmpChunks)

theorem Deferring.tick
    {frame : Frame}
    {rest frames : List Frame}
    {c next : ServerConnection}
    (receiving : Receiving c (frame :: rest))
    (deferring : Deferring c (frame :: rest))
    (permitted :
      ∀ error returns,
        frame = .dropRequests error returns →
        ∀ req ∈ c.requests.head?,
          ∀ other ∈ rest, req ∈ full? other → ¬ c.Waiting req)
    (executed : code frame c = .next next frames) :
    Deferring next (frames ++ rest) := by
  have popped : Deferring c rest := deferring.below [frame]
  cases frame with
  | onRead buf =>
      cases buf with
      | nil =>
          cases executed
          exact popped
      | cons result buf =>
          exact Deferring.parse receiving deferring executed
  | routed req done buf =>
      simp only [code, ServerConnection.routed] at executed
      split at executed
      · cases executed
        exact deferring.receive [_] (by simp)
      · split at executed
        · cases executed
          exact deferring.receive [_, _] (by simp)
        · cases executed
          exact deferring.receive [] (by simp)
  | received req done buf =>
      have alone := receiving.alone rfl
      subst rest
      have steady : Steady c next := steady_code (by rfl) executed
      refine (popped.steady steady).push _ ?_ (by simp)
      simp only [code, ServerConnection.received] at executed
      split at executed
      · cases executed
        simp [full?]
      · split at executed
        · cases executed
          simp [full?]
        · split at executed <;> cases executed <;> simp [full?]
  | requestError req error =>
      cases executed
      exact (popped.steady (Steady.readIgnore c)).push _ (by simp [full?])
        (by simp [serves])
  | requestErrorReturn req =>
      exact popped.pushed (steady_requestErrorReturn executed)
        (pushed_requestErrorReturn executed)
  | writeNextResponse =>
      exact Deferring.writeNextResponse receiving deferring executed
  | finishRequest =>
      exact Deferring.finishRequest receiving deferring executed
  | finishReturn =>
      refine (popped.steady (steady_finishReturn executed)).push _ ?_ ?_
      · rcases finishReturn_plain executed with ⟨_, isPlain⟩ | ⟨_, _, _, rfl⟩
        · intro frame member
          have plainFrame := isPlain frame member
          unfold isPlainFrame at plainFrame
          split at plainFrame <;> simp_all [full?]
        · simp [full?]
      · intro frame member req isFull isWaiting
        have notWaiting := deferring.not_waiting rfl member isFull
        exact (notWaiting
          (((steady_finishReturn executed).waiting req).mp isWaiting)).elim
  | dropRequests error returns =>
      exact Deferring.dropRequests receiving deferring
        (permitted error returns rfl) executed
  | callback _ | fire _ | readIgnore | dropNotify _ _ | upgradeReturn =>
      obtain ⟨steady, pushed⟩ := plain_next rfl executed
      exact popped.pushed steady pushed

/-- A read error names a request of the deque. -/
theorem Deferring.readFails
    {c next : ServerConnection}
    {req : Nat}
    (deferring : Deferring c [])
    (fails : ReadFails c next req) :
    Deferring next [] := by
  have isWaiting : ∀ other, next.Waiting other → c.Waiting other := by
    intro other waits
    by_cases same : other = req
    · subst other
      rcases fails.origin with
        ⟨_, _, _, _, _, stored⟩ | ⟨_, _, _, _, _, stored⟩
      · simpa [Waiting, stored] using waits
      · simp [Waiting, stored] at waits
    · simpa [Waiting, fails.others other same] using waits
  refine
    { waiting := ?_, place := ?_, received := by simp, kept := by simp }
  · intro other waits
    have completed := deferring.waiting other (isWaiting other waits)
    by_cases same : other = req
    · subst other
      rcases fails.origin with
        ⟨_, _, _, _, _, stored⟩ | ⟨_, _, _, _, _, stored⟩
      · simpa [Completed, ServerRequest.responseCompleted, stored]
          using completed
      · simp [Waiting, stored] at waits
    · simpa [Completed, fails.others other same] using completed
  · intro other member waits
    rcases fails.origin with
      ⟨_, _, requests, _⟩ | ⟨_, _, requests, _, _, stored⟩
    · rw [requests] at member ⊢
      exact deferring.place other member (isWaiting other waits)
    · rw [requests] at member ⊢
      rcases List.mem_append.mp member with inOld | isNew
      · simp [deferring.place other inOld (isWaiting other waits)]
      · have same : other = req := by simpa using isNew
        subst other
        simp [Waiting, stored] at waits

theorem Deferring.input
    {input : Input}
    {stack frames : List Frame}
    {c next : ServerConnection}
    (receiving : Receiving c stack)
    (deferring : Deferring c stack)
    (permitted :
      ∀ req,
        input = .upgrade req →
        c.Attached req →
        iequals (c.store req).headers.connection "upgrade" = true →
        c.requests = [req] →
        ∀ frame ∈ stack, req ∈ full? frame → ¬ c.Waiting req)
    (accepted : accept input stack.head? c = some (.next next frames)) :
    Deferring next (frames ++ stack) := by
  have calm :
      (∀ req, input ≠ .upgrade req) →
      (∀ buf, input ≠ .onRead buf) →
      (∀ error, input ≠ .onReadError error) →
      Deferring next (frames ++ stack) := by
    intro notUpgrade notRead notReadError
    obtain ⟨steady, pushed⟩ :=
      calls_accept accepted notUpgrade notRead notReadError
    exact deferring.pushed steady pushed
  cases input with
  | upgrade req =>
      rcases requestUpgrade_next (Option.some.inj accepted) with
        ⟨rfl, rfl⟩ | ⟨attached, upgrades, alone, rfl, rfl⟩
      · exact deferring
      · have cleaned :
            Deferring
              ((({ c with
                stream := { c.stream with listener := false }
                idleTimer := none } : ServerConnection).emit
                  (.upgraded req)).cleanupRequest req []) stack := by
          refine (deferring.steady (Steady.handOver c req)).cleanup ?_ ?_ ?_
          · exact receiving.sorted
          · exact alone
          · exact permitted req rfl attached upgrades alone
        exact cleaned.push _ (by simp [full?]) (by simp [serves])
  | onRead buf =>
      cases stack with
      | nil =>
          simp only [List.head?_nil, accept] at accepted
          split at accepted <;> cases accepted
          exact deferring.push [.onRead buf] (by simp [full?]) (by simp)
      | cons frame rest =>
          simp [accept] at accepted
  | onReadError error =>
      cases stack with
      | nil =>
          simp only [List.head?_nil, accept] at accepted
          split at accepted
          · simp only [Option.some.injEq] at accepted
            obtain ⟨req, rfl, fails⟩ := onReadError_next accepted
            have ended :
                Steady c { c with stream := { c.stream with ended := true } } :=
              Steady.of_plain
                (Plain.setStream c _ c.idleTimer (by simp [Silent, canRead]))
            exact ((deferring.steady ended).readFails fails).push _
              (by simp [full?]) (by simp)
          · cases accepted
      | cons frame rest =>
          simp [accept] at accepted
  | _ =>
      apply calm <;> simp

theorem deferring_initial (config : ConnectionConfig) :
    Deferring (initial config) [] where
  waiting := by simp [initial, Waiting]
  place := by simp [initial]
  received := by simp
  kept := by simp

end UniEventHttp.ServerConnection
