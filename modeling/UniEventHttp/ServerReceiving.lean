import UniEventHttp.ServerState

namespace UniEventHttp.ServerConnection

/-!
# Receiving

What holds of the deque and the parser in every run, whatever the application
does.  The deque is sorted by arrival; an attached request is in the deque or is
held by a suspended `write_next_response`; only the last request of the deque
can be unfinished, and then it is the one that the parser works on.
-/

/-! ## The frames -/

/-- The request that a frame holds outside the deque. -/
def held? : Frame → Option Nat
  | .dropRequests _ (.writeNextResponse req _) => some req
  | _ => none

/-- The requests held outside the deque. -/
def held (stack : List Frame) : List Nat :=
  stack.filterMap held?

/-- The frames of the loop of `on_read`. -/
def isReader : Frame → Bool
  | .onRead _ => true
  | .routed _ _ _ => true
  | .received _ _ _ => true
  | _ => false

/-- The rest of the buffer that a frame goes on with. -/
def buffer : Frame → List Parsed
  | .onRead buf => buf
  | .routed _ _ buf => buf
  | .received _ _ buf => buf
  | _ => []

/-- The frames that neither read nor hold a request. -/
def isInner : Frame → Bool
  | .onRead _ => false
  | .routed _ _ _ => false
  | .received _ _ _ => false
  | .dropRequests _ (.writeNextResponse _ _) => false
  | _ => true

/-- The loop of `on_read` is at the bottom of the stack. -/
def ReadersLast : List Frame → Prop
  | [] => True
  | frame :: below => (isReader frame = true → below = []) ∧ ReadersLast below

/-- A buffer is left only while the parser is between two requests. -/
def Between (c : ServerConnection) (stack : List Frame) : Prop :=
  ∀ frame ∈ stack, buffer frame ≠ [] → c.parsing = none

/-- The invariant of the deque and the parser. -/
structure Receiving (c : ServerConnection) (stack : List Frame) : Prop where
  sorted : c.requests.Pairwise (· < ·)
  requestsBelow : ∀ req ∈ c.requests, req < c.nextId
  attachedBelow : ∀ req, c.Attached req → req < c.nextId
  located : ∀ req, c.Attached req → req ∈ c.requests ∨ req ∈ held stack
  heldApart :
    ∀ req ∈ held stack,
      req < c.nextId ∧ req ∉ c.requests ∧ c.Done req ∧ c.Silent
  heldOnce : (held stack).Nodup
  unfinished :
    ∀ req ∈ c.requests,
      ¬ c.Done req →
      c.parsing = some req ∧ c.requests.getLast? = some req
  parsingNewest :
    ∀ req,
      c.parsing = some req →
      req < c.nextId ∧ (req + 1 = c.nextId ∨ c.Silent)
  parsingDone :
    ∀ req, c.parsing = some req → c.Done req → c.Silent
  parsingPlace :
    ∀ req,
      c.parsing = some req →
      req ∈ c.requests ∨ c.requests = [] ∨ c.Silent
  readersLast : ReadersLast stack
  buffered :
    Between c stack ∨ ∃ buf, stack = [.onRead buf] ∧ ¬ c.Silent

/-! ## Inner frames -/

theorem held_append (above below : List Frame) :
    held (above ++ below) = held above ++ held below :=
  List.filterMap_append

theorem held_inner
    {frames : List Frame}
    (inner : ∀ frame ∈ frames, isInner frame = true)
    (below : List Frame) :
    held (frames ++ below) = held below := by
  have none : frames.filterMap held? = [] := by
    rw [List.filterMap_eq_nil_iff]
    intro frame member
    have := inner frame member
    unfold held?
    split
    · simp [isInner] at this
    · rfl
  simp [held, none]

theorem readersLast_inner
    {frames below : List Frame}
    (inner : ∀ frame ∈ frames, isInner frame = true)
    (readersLast : ReadersLast below) :
    ReadersLast (frames ++ below) := by
  induction frames with
  | nil =>
      exact readersLast
  | cons frame rest inductionHypothesis =>
      refine ⟨?_, inductionHypothesis
        fun other member => inner other (List.mem_cons_of_mem _ member)⟩
      intro reader
      have frameInner := inner frame (by simp)
      cases frame <;> simp_all [isInner, isReader]

theorem ReadersLast.below
    {above below : List Frame}
    (readersLast : ReadersLast (above ++ below)) :
    ReadersLast below := by
  induction above with
  | nil =>
      exact readersLast
  | cons frame rest inductionHypothesis =>
      exact inductionHypothesis readersLast.2

theorem between_inner
    {c : ServerConnection}
    {frames below : List Frame}
    (inner : ∀ frame ∈ frames, isInner frame = true)
    (between : Between c below) :
    Between c (frames ++ below) := by
  intro frame member nonempty
  rcases List.mem_append.mp member with above | inBelow
  · have frameInner := inner frame above
    cases frame <;> simp_all [isInner, buffer]
  · exact between frame inBelow nonempty

theorem Between.below
    {c : ServerConnection}
    {above below : List Frame}
    (between : Between c (above ++ below)) :
    Between c below :=
  fun frame member => between frame (List.mem_append_right _ member)

/-! ## Steps that leave the deque and the parser as they are -/

/-- The second state has the deque and the parser of the first. -/
structure Kept (c next : ServerConnection) : Prop where
  requests : next.requests = c.requests
  nextId : next.nextId = c.nextId
  parsing : next.parsing = c.parsing
  attached : ∀ req, next.Attached req ↔ c.Attached req
  done : ∀ req, next.Done req ↔ c.Done req
  silent : c.Silent → next.Silent

namespace Kept

theorem refl (c : ServerConnection) : Kept c c :=
  ⟨rfl, rfl, rfl, fun _ => Iff.rfl, fun _ => Iff.rfl, id⟩

theorem trans
    {first second third : ServerConnection}
    (one : Kept first second)
    (two : Kept second third) :
    Kept first third where
  requests := two.requests.trans one.requests
  nextId := two.nextId.trans one.nextId
  parsing := two.parsing.trans one.parsing
  attached req := (two.attached req).trans (one.attached req)
  done req := (two.done req).trans (one.done req)
  silent silent := two.silent (one.silent silent)

theorem emit (c : ServerConnection) (event : Event) :
    Kept c (c.emit event) :=
  ⟨rfl, rfl, rfl, fun _ => Iff.rfl, fun _ => Iff.rfl, id⟩

theorem write (c : ServerConnection) (piece : Piece) :
    Kept c (c.write piece) :=
  ⟨rfl, rfl, rfl, fun _ => Iff.rfl, fun _ => Iff.rfl, id⟩

theorem setRequest
    (c : ServerConnection)
    (req : Nat)
    (request : ServerRequest)
    (sameConnection : request.connection = (c.store req).connection)
    (sameDone : request.isDone = (c.store req).isDone) :
    Kept c (c.setRequest req request) where
  requests := rfl
  nextId := rfl
  parsing := rfl
  attached other := by
    by_cases same : other = req <;>
      simp [Attached, same, sameConnection]
  done other := by
    by_cases same : other = req <;>
      simp [Done, same, sameDone]
  silent := id

theorem setResponse
    (c : ServerConnection)
    (req : Nat)
    (response : ServerResponse) :
    Kept c (c.setResponse req response) :=
  setRequest c req _ rfl rfl

theorem readIgnore (c : ServerConnection) : Kept c c.readIgnore :=
  ⟨rfl, rfl, rfl, fun _ => Iff.rfl, fun _ => Iff.rfl,
    fun _ => by simp [Silent, canRead, ServerConnection.readIgnore]⟩

end Kept

/-- The invariant depends on the deque and the parser only. -/
theorem Receiving.same
    {c next : ServerConnection}
    {stack : List Frame}
    (receiving : Receiving c stack)
    (kept : Kept c next)
    (between : Between c stack) :
    Receiving next stack where
  sorted := by
    rw [kept.requests]
    exact receiving.sorted
  requestsBelow := by
    rw [kept.requests, kept.nextId]
    exact receiving.requestsBelow
  attachedBelow req attached := by
    rw [kept.nextId]
    exact receiving.attachedBelow req ((kept.attached req).mp attached)
  located req attached := by
    rw [kept.requests]
    exact receiving.located req ((kept.attached req).mp attached)
  heldApart req member := by
    obtain ⟨below, apart, done, silent⟩ := receiving.heldApart req member
    rw [kept.requests, kept.nextId, kept.done]
    exact ⟨below, apart, done, kept.silent silent⟩
  heldOnce := receiving.heldOnce
  unfinished req member notDone := by
    rw [kept.requests] at member ⊢
    rw [kept.done] at notDone
    rw [kept.parsing]
    exact receiving.unfinished req member notDone
  parsingNewest req parsing := by
    rw [kept.parsing] at parsing
    rw [kept.nextId]
    exact (receiving.parsingNewest req parsing).imp_right
      (Or.imp_right kept.silent)
  parsingDone req parsing done := by
    rw [kept.parsing] at parsing
    rw [kept.done] at done
    exact kept.silent (receiving.parsingDone req parsing done)
  parsingPlace req parsing := by
    rw [kept.parsing] at parsing
    rw [kept.requests]
    exact (receiving.parsingPlace req parsing).imp_right
      (Or.imp_right kept.silent)
  readersLast := receiving.readersLast
  buffered := by
    left
    intro frame member nonempty
    rw [kept.parsing]
    exact between frame member nonempty

/-- The invariant on another stack. -/
theorem Receiving.restack
    {c : ServerConnection}
    {stack other : List Frame}
    (receiving : Receiving c stack)
    (sameHeld : held other = held stack)
    (readersLast : ReadersLast other)
    (between : Between c other) :
    Receiving c other :=
  { receiving with
    located := by
      rw [sameHeld]
      exact receiving.located
    heldApart := by
      rw [sameHeld]
      exact receiving.heldApart
    heldOnce := by
      rw [sameHeld]
      exact receiving.heldOnce
    readersLast := readersLast
    buffered := Or.inl between }

/-- Inner frames may take the place of inner frames. -/
theorem Receiving.replace
    {c : ServerConnection}
    {frames rest : List Frame}
    (top : List Frame)
    (receiving : Receiving c (top ++ rest))
    (between : Between c (top ++ rest))
    (topInner : ∀ frame ∈ top, isInner frame = true)
    (inner : ∀ frame ∈ frames, isInner frame = true) :
    Receiving c (frames ++ rest) := by
  apply receiving.restack
  · rw [held_inner inner, held_inner topInner]
  · exact readersLast_inner inner receiving.readersLast.below
  · exact between_inner inner between.below

/-- Nothing is left in a buffer while the parser works on a request. -/
theorem Receiving.between
    {c : ServerConnection}
    {stack : List Frame}
    (receiving : Receiving c stack)
    (notReading : ∀ buf, stack ≠ [.onRead buf]) :
    Between c stack := by
  rcases receiving.buffered with between | ⟨buf, shape, _⟩
  · exact between
  · exact (notReading buf shape).elim

/-! ## Leaving the deque -/

/-- A request that another one follows in the deque is fully received. -/
theorem Receiving.followed
    {c : ServerConnection}
    {stack : List Frame}
    {req : Nat}
    {rest : List Nat}
    (receiving : Receiving c stack)
    (shape : c.requests = req :: rest)
    (nonempty : rest ≠ []) :
    c.Done req := by
  by_contra notDone
  have sorted := receiving.sorted
  rw [shape, List.pairwise_cons] at sorted
  have last :=
    (receiving.unfinished req (by simp [shape]) notDone).2
  have member : req ∈ rest := by
    obtain ⟨second, others, rfl⟩ := List.exists_cons_of_ne_nil nonempty
    apply List.mem_of_getLast?
    simpa [shape] using last
  exact Nat.lt_irrefl req (sorted.1 req member)

/-- The first request of the deque is cleaned up. -/
theorem Receiving.cleanup
    {c : ServerConnection}
    {stack : List Frame}
    {req : Nat}
    {rest : List Nat}
    (receiving : Receiving c stack)
    (between : Between c stack)
    (shape : c.requests = req :: rest) :
    Receiving (c.cleanupRequest req rest) stack := by
  have requests : (c.cleanupRequest req rest).requests = rest := rfl
  have nextId : (c.cleanupRequest req rest).nextId = c.nextId := rfl
  have parsingSame : (c.cleanupRequest req rest).parsing = c.parsing := rfl
  have silentSame : (c.cleanupRequest req rest).Silent ↔ c.Silent := Iff.rfl
  have attached :
      ∀ other,
        (c.cleanupRequest req rest).Attached other ↔
          other ≠ req ∧ c.Attached other := by
    intro other
    by_cases same : other = req <;>
      simp [Attached, cleanupRequest, emit, setRequest, same]
  have done :
      ∀ other, (c.cleanupRequest req rest).Done other ↔ c.Done other := by
    intro other
    by_cases same : other = req <;>
      simp [Done, cleanupRequest, emit, setRequest, same]
  have sorted := receiving.sorted
  rw [shape, List.pairwise_cons] at sorted
  have inOld : ∀ other ∈ rest, other ∈ c.requests := by
    intro other member
    rw [shape]
    exact List.mem_cons_of_mem _ member
  refine
    { sorted := ?_, requestsBelow := ?_, attachedBelow := ?_,
      located := ?_, heldApart := ?_, heldOnce := receiving.heldOnce,
      unfinished := ?_, parsingNewest := receiving.parsingNewest,
      parsingDone := ?_, parsingPlace := ?_,
      readersLast := receiving.readersLast, buffered := Or.inl between }
  · exact sorted.2
  · intro other member
    exact receiving.requestsBelow other (inOld other member)
  · intro other isAttached
    exact receiving.attachedBelow other ((attached other).mp isAttached).2
  · intro other isAttached
    obtain ⟨different, wasAttached⟩ := (attached other).mp isAttached
    rcases receiving.located other wasAttached with inside | isHeld
    · rw [shape] at inside
      exact Or.inl ((List.mem_cons.mp inside).resolve_left different)
    · exact Or.inr isHeld
  · intro other member
    obtain ⟨below, apart, isDone, silent⟩ := receiving.heldApart other member
    exact ⟨below, fun inside => apart (inOld other inside),
      (done other).mpr isDone, silent⟩
  · intro other member notDone
    rw [done] at notDone
    obtain ⟨parsing, last⟩ :=
      receiving.unfinished other (inOld other member) notDone
    refine ⟨parsing, ?_⟩
    rw [shape] at last
    rw [requests]
    cases rest with
    | nil =>
        cases member
    | cons second others =>
        simpa using last
  · intro other parsing isDone
    exact receiving.parsingDone other parsing ((done other).mp isDone)
  · intro other parsing
    rw [requests]
    rcases receiving.parsingPlace other parsing with inside | empty | silent
    · rw [shape] at inside
      rcases List.mem_cons.mp inside with first | inRest
      · subst other
        by_cases empty : rest = []
        · exact Or.inr (Or.inl empty)
        · exact Or.inr (Or.inr
            (receiving.parsingDone req parsing
              (receiving.followed shape empty)))
      · exact Or.inl inRest
    · simp [shape] at empty
    · exact Or.inr (Or.inr silent)

/-- `write_next_response` holds the first request while the others are dropped. -/
theorem Receiving.hold
    {c : ServerConnection}
    {frame : Frame}
    {below : List Frame}
    {req : Nat}
    {rest : List Nat}
    {error : Option ErrorCode}
    {tmpChunks : List Data}
    (receiving : Receiving c (frame :: below))
    (inner : isInner frame = true)
    (shape : c.requests = req :: rest)
    (nonempty : rest ≠ [])
    (silent : c.Silent) :
    Receiving { c with requests := rest }
      (.dropRequests error (.writeNextResponse req tmpChunks) :: below) := by
  have frameInner : ∀ other ∈ [frame], isInner other = true := by
    simpa using inner
  have sameHeld : held (frame :: below) = held below :=
    held_inner frameInner below
  have newHeld :
      held (.dropRequests error (.writeNextResponse req tmpChunks) :: below) =
        req :: held below := rfl
  have notReading : ∀ buf, frame :: below ≠ [.onRead buf] := by
    intro buf same
    simp only [List.cons.injEq] at same
    simp [same.1, isInner] at inner
  have sorted := receiving.sorted
  rw [shape, List.pairwise_cons] at sorted
  have inOld : ∀ other ∈ rest, other ∈ c.requests := by
    intro other member
    rw [shape]
    exact List.mem_cons_of_mem _ member
  have notHeld : req ∉ held below := by
    intro member
    rw [← sameHeld] at member
    exact (receiving.heldApart req member).2.1 (by simp [shape])
  refine
    { sorted := sorted.2, requestsBelow := ?_,
      attachedBelow := receiving.attachedBelow,
      located := ?_, heldApart := ?_, heldOnce := ?_,
      unfinished := ?_, parsingNewest := receiving.parsingNewest,
      parsingDone := receiving.parsingDone,
      parsingPlace := fun _ _ => Or.inr (Or.inr silent),
      readersLast := ⟨by simp [isReader], receiving.readersLast.2⟩,
      buffered := Or.inl ?_ }
  · intro other member
    exact receiving.requestsBelow other (inOld other member)
  · intro other attached
    rw [newHeld]
    rcases receiving.located other attached with inside | isHeld
    · rw [shape] at inside
      rcases List.mem_cons.mp inside with first | inRest
      · exact Or.inr (by simp [first])
      · exact Or.inl inRest
    · rw [sameHeld] at isHeld
      exact Or.inr (List.mem_cons_of_mem _ isHeld)
  · intro other member
    rw [newHeld] at member
    rcases List.mem_cons.mp member with first | isHeld
    · subst other
      refine ⟨receiving.requestsBelow req (by simp [shape]), ?_,
        receiving.followed shape nonempty, silent⟩
      intro inRest
      exact Nat.lt_irrefl req (sorted.1 req inRest)
    · rw [← sameHeld] at isHeld
      obtain ⟨isBelow, apart, done, _⟩ := receiving.heldApart other isHeld
      exact ⟨isBelow, fun inside => apart (inOld other inside), done, silent⟩
  · rw [newHeld]
    refine List.nodup_cons.mpr ⟨notHeld, ?_⟩
    rw [← sameHeld]
    exact receiving.heldOnce
  · intro other member notDone
    obtain ⟨parsing, last⟩ :=
      receiving.unfinished other (inOld other member) notDone
    refine ⟨parsing, ?_⟩
    obtain ⟨second, others, rfl⟩ := List.exists_cons_of_ne_nil nonempty
    simpa [shape] using last
  · have between := receiving.between notReading
    intro other member nonemptyBuffer
    rcases List.mem_cons.mp member with top | inBelow
    · subst other
      simp [buffer] at nonemptyBuffer
    · exact between other (List.mem_cons_of_mem _ inBelow) nonemptyBuffer

/-- The held request is put back when the others are gone. -/
theorem Receiving.restore
    {c : ServerConnection}
    {below : List Frame}
    {req : Nat}
    {error : Option ErrorCode}
    {tmpChunks : List Data}
    (frames : List Frame)
    (receiving :
      Receiving c
        (.dropRequests error (.writeNextResponse req tmpChunks) :: below))
    (empty : c.requests = [])
    (inner : ∀ frame ∈ frames, isInner frame = true) :
    Receiving { c with requests := [req] } (frames ++ below) := by
  have oldHeld :
      held (.dropRequests error (.writeNextResponse req tmpChunks) :: below) =
        req :: held below := rfl
  have newHeld : held (frames ++ below) = held below :=
    held_inner inner below
  obtain ⟨reqBelow, _, reqDone, silent⟩ :=
    receiving.heldApart req (by simp [oldHeld])
  have heldOnce := receiving.heldOnce
  rw [oldHeld, List.nodup_cons] at heldOnce
  refine
    { sorted := by simp, requestsBelow := by simpa using reqBelow,
      attachedBelow := receiving.attachedBelow,
      located := ?_, heldApart := ?_, heldOnce := ?_,
      unfinished := ?_, parsingNewest := receiving.parsingNewest,
      parsingDone := receiving.parsingDone,
      parsingPlace := fun _ _ => Or.inr (Or.inr silent),
      readersLast := readersLast_inner inner receiving.readersLast.2,
      buffered := Or.inl ?_ }
  · intro other attached
    rw [newHeld]
    rcases receiving.located other attached with inside | isHeld
    · simp [empty] at inside
    · rw [oldHeld] at isHeld
      exact (List.mem_cons.mp isHeld).imp_left (by simp)
  · intro other member
    rw [newHeld] at member
    obtain ⟨isBelow, _, done, _⟩ :=
      receiving.heldApart other (by simp [oldHeld, member])
    refine ⟨isBelow, ?_, done, silent⟩
    intro inside
    have same : other = req := by simpa using inside
    exact heldOnce.1 (same ▸ member)
  · rw [newHeld]
    exact heldOnce.2
  · intro other member notDone
    have same : other = req := by simpa using member
    exact (notDone (same ▸ reqDone)).elim
  · have between := receiving.between (by simp)
    exact between_inner inner
      fun frame member => between frame (List.mem_cons_of_mem _ member)

/-! ## Joining the deque -/

/-- While a buffer is left the parser's request is the newest one. -/
theorem Receiving.reading
    {c : ServerConnection}
    {result : Parsed}
    {rest : List Parsed}
    (receiving : Receiving c [.onRead (result :: rest)])
    {req : Nat}
    (parsing : c.parsing = some req) :
    req + 1 = c.nextId ∧ (req ∈ c.requests ∨ c.requests = []) := by
  have notSilent : ¬ c.Silent := by
    rcases receiving.buffered with between | ⟨buf, _, notSilent⟩
    · have idle := between (.onRead (result :: rest)) (by simp) (by simp [buffer])
      simp [parsing] at idle
    · exact notSilent
  constructor
  · exact (receiving.parsingNewest req parsing).2.resolve_right notSilent
  · rcases receiving.parsingPlace req parsing with inside | empty | silent
    · exact Or.inl inside
    · exact Or.inr empty
    · exact (notSilent silent).elim

/-- The newest request is the last one of the deque if it is in it. -/
theorem Receiving.newest_last
    {c : ServerConnection}
    {stack : List Frame}
    (receiving : Receiving c stack)
    {req : Nat}
    (newest : req + 1 = c.nextId)
    (member : req ∈ c.requests) :
    c.requests.getLast? = some req := by
  obtain ⟨front, last, shape⟩ :=
    List.eq_nil_or_concat c.requests |>.resolve_left
      (List.ne_nil_of_mem member)
  rw [List.concat_eq_append] at shape
  have lastBelow := receiving.requestsBelow last (by simp [shape])
  have sorted := receiving.sorted
  rw [shape, List.pairwise_append] at sorted
  have isLast : req = last := by
    rw [shape] at member
    rcases List.mem_append.mp member with inFront | atEnd
    · have := sorted.2.2 req inFront last (by simp)
      omega
    · simpa using atEnd
  simp [shape, isLast]

/-- A parsed request is the last one of the deque. -/
theorem Receiving.parse
    {c next : ServerConnection}
    {result : Parsed}
    {rest : List Parsed}
    {req : Nat}
    {stack : List Frame}
    (receiving : Receiving c [.onRead (result :: rest)])
    (parses : Parses c result next req)
    (heldNone : held stack = [])
    (readersLast : ReadersLast stack)
    (between : Between next stack) :
    Receiving next stack := by
  obtain ⟨base, stored, origin⟩ := parses.origin
  -- either the parser goes on with the newest request or it starts a new one
  have newest :
      next.nextId = req + 1 ∧ c.nextId ≤ next.nextId ∧
        (req ∈ c.requests ∨ c.requests = [] ∨ c.nextId = req) ∧
        (c.parsing = some req ∨ c.parsing = none) ∧
        (next.Attached req → c.nextId = req ∨ c.Attached req) := by
    rcases origin with
      ⟨parsing, same, sameId, _⟩ | ⟨parsing, fresh, isNext, nextId, _⟩
    · obtain ⟨isNewest, place⟩ := receiving.reading parsing
      refine ⟨by omega, by omega, ?_, Or.inl parsing, ?_⟩
      · exact place.imp_right Or.inl
      · intro attached
        right
        simpa [Attached, stored, same] using attached
    · exact ⟨by omega, by omega, Or.inr (Or.inr isNext.symm),
        Or.inr parsing, fun _ => Or.inl isNext.symm⟩
  obtain ⟨nextId, grows, place, wasParsing, wasAttached⟩ := newest
  have attached :
      ∀ other, other ≠ req → (next.Attached other ↔ c.Attached other) := by
    intro other different
    simp [Attached, parses.others other different]
  have done :
      ∀ other, other ≠ req → (next.Done other ↔ c.Done other) := by
    intro other different
    simp [Done, parses.others other different]
  have reqDone : next.Done req ↔ result.isDone = true := by
    simp [Done, stored]
  have oldBelow : ∀ other ∈ c.requests, other ≤ req := by
    intro other member
    have := receiving.requestsBelow other member
    omega
  -- the deque after the step
  have deque :
      (next.requests = c.requests ∧ c.requests.getLast? = some req) ∨
        (next.requests = c.requests ++ [req] ∧
          ∀ other ∈ c.requests, other < req) := by
    by_cases last : c.requests.getLast? = some req
    · left
      exact ⟨by simp [parses.requests, last], last⟩
    · right
      refine ⟨by simp [parses.requests, last], ?_⟩
      intro other member
      rcases place with inside | empty | fresh
      · rcases wasParsing with parsing | idle
        · have isNewest := (receiving.reading parsing).1
          exact (last (receiving.newest_last isNewest inside)).elim
        · rcases origin with ⟨parsing, _⟩ | ⟨_, _, isNext, _⟩
          · simp [idle] at parsing
          · have := receiving.requestsBelow req inside
            omega
      · simp [empty] at member
      · have := receiving.requestsBelow other member
        omega
  have last : next.requests.getLast? = some req := by
    rcases deque with ⟨shape, isLast⟩ | ⟨shape, _⟩
    · rw [shape]
      exact isLast
    · simp [shape]
  have reqMember : req ∈ next.requests := List.mem_of_getLast? last
  have memberOld :
      ∀ other ∈ next.requests, other ≠ req → other ∈ c.requests := by
    intro other member different
    rcases deque with ⟨shape, _⟩ | ⟨shape, _⟩
    · rwa [shape] at member
    · rw [shape] at member
      exact (List.mem_append.mp member).resolve_right (by simpa using different)
  have oldMember : ∀ other ∈ c.requests, other ∈ next.requests := by
    intro other member
    rcases deque with ⟨shape, _⟩ | ⟨shape, _⟩ <;> simp [shape, member]
  -- a request before the last one has a successor, so it is finished
  have otherDone :
      ∀ other ∈ next.requests, other ≠ req → c.Done other := by
    intro other member different
    by_contra notDone
    obtain ⟨parsing, isLast⟩ :=
      receiving.unfinished other (memberOld other member different) notDone
    rcases wasParsing with parsingReq | idle
    · rw [parsing] at parsingReq
      exact different (Option.some.inj parsingReq)
    · simp [parsing] at idle
  refine
    { sorted := ?_, requestsBelow := ?_, attachedBelow := ?_,
      located := ?_, heldApart := ?_, heldOnce := ?_,
      unfinished := ?_, parsingNewest := ?_,
      parsingDone := ?_, parsingPlace := ?_,
      readersLast := readersLast, buffered := Or.inl between }
  · rcases deque with ⟨shape, _⟩ | ⟨shape, below⟩
    · rw [shape]
      exact receiving.sorted
    · rw [shape, List.pairwise_append]
      exact ⟨receiving.sorted, by simp, by simpa using below⟩
  · intro other member
    by_cases same : other = req
    · omega
    · have := receiving.requestsBelow other (memberOld other member same)
      omega
  · intro other isAttached
    by_cases same : other = req
    · omega
    · have := receiving.attachedBelow other ((attached other same).mp isAttached)
      omega
  · intro other isAttached
    by_cases same : other = req
    · exact Or.inl (same ▸ reqMember)
    · have located :=
        receiving.located other ((attached other same).mp isAttached)
      have inside : other ∈ c.requests := by
        simpa [held, held?] using located
      exact Or.inl (oldMember other inside)
  · simp [heldNone]
  · simp [heldNone]
  · intro other member notDone
    by_cases same : other = req
    · subst other
      have unfinished : result.isDone = false := by
        simpa [reqDone] using notDone
      exact ⟨by simp [parses.parsing, unfinished], last⟩
    · exact (notDone
        ((done other same).mpr (otherDone other member same))).elim
  · intro other parsing
    rw [parses.parsing] at parsing
    have same : other = req := by
      split at parsing
      · cases parsing
      · exact (Option.some.inj parsing).symm
    exact ⟨by omega, Or.inl (by omega)⟩
  · intro other parsing isDone
    rw [parses.parsing] at parsing
    split at parsing
    · cases parsing
    · rename_i notDone
      have same : other = req := (Option.some.inj parsing).symm
      rw [same, reqDone] at isDone
      exact (notDone isDone).elim
  · intro other parsing
    rw [parses.parsing] at parsing
    split at parsing
    · cases parsing
    · have same : other = req := (Option.some.inj parsing).symm
      exact Or.inl (same ▸ reqMember)

/-- After a read error every request of the deque is finished. -/
theorem Receiving.readFails
    {c next : ServerConnection}
    {req : Nat}
    {stack : List Frame}
    (receiving : Receiving c [])
    (silent : c.Silent)
    (fails : ReadFails c next req)
    (inner : ∀ frame ∈ stack, isInner frame = true) :
    Receiving next stack := by
  have sameHeld : held stack = [] := by
    simpa [held] using held_inner inner []
  have nextSilent : next.Silent := by
    simpa [Silent, canRead, fails.stream] using silent
  have allDone : ∀ other ∈ next.requests, next.Done other := by
    intro other member
    by_cases same : other = req
    · subst other
      rcases fails.origin with
        ⟨_, _, _, _, _, stored⟩ | ⟨_, _, _, _, _, stored⟩ <;>
        simp [Done, stored]
    · simp only [Done, fails.others other same]
      by_contra notDone
      rcases fails.origin with
        ⟨last, _, requests, _⟩ | ⟨lastDone, _, requests, _⟩
      · rw [requests] at member
        have isLast := (receiving.unfinished other member notDone).2
        rw [last] at isLast
        exact same (Option.some.inj isLast).symm
      · rw [requests] at member
        have inOld : other ∈ c.requests :=
          (List.mem_append.mp member).resolve_right (by simpa using same)
        exact notDone
          (lastDone other (receiving.unfinished other inOld notDone).2)
  have wasAttached :
      ∀ other, other ≠ req → next.Attached other → c.Attached other := by
    intro other different attached
    simpa [Attached, fails.others other different] using attached
  have inDeque : ∀ other, c.Attached other → other ∈ c.requests := by
    intro other attached
    simpa [held] using receiving.located other attached
  refine
    { sorted := ?_, requestsBelow := ?_, attachedBelow := ?_,
      located := ?_, heldApart := by simp [sameHeld],
      heldOnce := by simp [sameHeld],
      unfinished := fun other member notDone =>
        (notDone (allDone other member)).elim,
      parsingNewest := ?_,
      parsingDone := fun _ _ _ => nextSilent,
      parsingPlace := fun _ _ => Or.inr (Or.inr nextSilent),
      readersLast := ?_, buffered := Or.inl ?_ }
  · rcases fails.origin with
      ⟨_, _, requests, _⟩ | ⟨_, isNext, requests, _⟩
    · rw [requests]
      exact receiving.sorted
    · rw [requests, List.pairwise_append]
      refine ⟨receiving.sorted, by simp, ?_⟩
      intro other member last isLast
      have := receiving.requestsBelow other member
      simp only [List.mem_singleton] at isLast
      omega
  · intro other member
    rcases fails.origin with
      ⟨_, _, requests, nextId, _⟩ | ⟨_, isNext, requests, nextId, _⟩
    · rw [requests] at member
      rw [nextId]
      exact receiving.requestsBelow other member
    · rw [requests] at member
      rcases List.mem_append.mp member with inOld | isNew
      · have := receiving.requestsBelow other inOld
        omega
      · simp only [List.mem_singleton] at isNew
        omega
  · intro other attached
    rcases fails.origin with
      ⟨last, _, requests, nextId, _⟩ | ⟨_, isNext, requests, nextId, _⟩
    · rw [nextId]
      by_cases same : other = req
      · subst other
        exact receiving.requestsBelow req (List.mem_of_getLast? last)
      · exact receiving.attachedBelow other (wasAttached other same attached)
    · by_cases same : other = req
      · omega
      · have := receiving.attachedBelow other (wasAttached other same attached)
        omega
  · intro other attached
    left
    rcases fails.origin with
      ⟨last, _, requests, _⟩ | ⟨_, _, requests, _⟩
    · rw [requests]
      by_cases same : other = req
      · subst other
        exact List.mem_of_getLast? last
      · exact inDeque other (wasAttached other same attached)
    · rw [requests]
      by_cases same : other = req
      · simp [same]
      · exact List.mem_append_left _
          (inDeque other (wasAttached other same attached))
  · intro other parsing
    rw [fails.parsing] at parsing
    have := (receiving.parsingNewest other parsing).1
    refine ⟨?_, Or.inr nextSilent⟩
    rcases fails.origin with ⟨_, _, _, nextId, _⟩ | ⟨_, _, _, nextId, _⟩ <;>
      omega
  · have onNone : ReadersLast (stack ++ []) :=
      readersLast_inner inner trivial
    simpa using onNone
  · have onNone : Between next (stack ++ []) :=
      between_inner inner (by simp [Between])
    simpa using onNone

/-! ## Quiet code -/

/-- The code leaves the deque and the parser as they are and calls inner frames. -/
def Quiet (c : ServerConnection) : Step → Prop
  | .next next frames =>
      Kept c next ∧ ∀ frame ∈ frames, isInner frame = true
  | .raise next => Kept c next
  | .fault _ => True

theorem Kept.takeResponse
    (c : ServerConnection)
    (req : Nat)
    (response : ServerResponse) :
    Kept c (c.takeResponse req response) := by
  have flags :
      ∀ processed stopping,
        Kept c { c with
          requestsProcessed := processed, stopping := stopping } :=
    fun _ _ => ⟨rfl, rfl, rfl, fun _ => Iff.rfl, fun _ => Iff.rfl, id⟩
  exact ((flags _ _).trans (Kept.setResponse _ req _)).trans (Kept.emit _ _)

theorem Kept.stopIdleTimer (c : ServerConnection) :
    Kept c c.stopIdleTimer :=
  ⟨rfl, rfl, rfl, fun _ => Iff.rfl, fun _ => Iff.rfl, id⟩

theorem Kept.writeChunks
    (c : ServerConnection)
    (req : Nat)
    (chunks : List Data) :
    Kept c (c.writeChunks req chunks) := by
  induction chunks generalizing c with
  | nil =>
      exact Kept.refl c
  | cons data rest inductionHypothesis =>
      exact (Kept.write c _).trans (inductionHypothesis _)

theorem requests_writeChunks
    (c : ServerConnection)
    (req : Nat)
    (chunks : List Data) :
    (c.writeChunks req chunks).requests = c.requests :=
  (Kept.writeChunks c req chunks).requests

theorem Kept.writeHead
    (c : ServerConnection)
    (req : Nat)
    (response : ServerResponse) :
    Kept c (c.writeHead req response) :=
  (Kept.setResponse c req response).trans (Kept.write _ _)

theorem Kept.startClosing
    (c : ServerConnection)
    (req : Nat) :
    Kept c (c.startClosing req) := by
  simp only [ServerConnection.startClosing]
  split
  · exact ⟨rfl, rfl, rfl, fun _ => Iff.rfl, fun _ => Iff.rfl,
      fun _ => by simp [Silent, canRead, ServerConnection.readIgnore]⟩
  · exact ⟨rfl, rfl, rfl, fun _ => Iff.rfl, fun _ => Iff.rfl, id⟩

theorem Kept.of_plain
    {c next : ServerConnection}
    (plain : Plain c next) :
    Kept c next where
  requests := plain.requests
  nextId := plain.nextId
  parsing := plain.parsing
  attached req := by simp [Attached, plain.store]
  done req := by simp [Done, plain.store]
  silent := plain.silent

theorem Quiet.of_plain
    {c : ServerConnection}
    {step : Step}
    (plain : PlainStep c step) :
    Quiet c step := by
  cases step with
  | next next frames =>
      refine ⟨Kept.of_plain plain.1, ?_⟩
      intro frame member
      have isPlain := plain.2 frame member
      unfold isPlainFrame at isPlain
      split at isPlain <;> simp_all [isInner]
  | raise next =>
      exact Kept.of_plain plain
  | fault reason =>
      trivial

theorem quiet_gracefulStop (c : ServerConnection) :
    Quiet c c.gracefulStop := by
  unfold gracefulStop
  split
  · exact Quiet.of_plain (plain_doClose c _ _)
  · exact ⟨⟨rfl, rfl, rfl, fun _ => Iff.rfl, fun _ => Iff.rfl, id⟩, by simp⟩

theorem quiet_respond
    (c : ServerConnection)
    (req : Nat)
    (response : ServerResponse) :
    Quiet c (c.respond req response) := by
  cases executed : c.respond req response with
  | next next frames =>
      obtain ⟨_, _, rfl, front, rest, _, ⟨_, rfl⟩ | ⟨_, rfl⟩⟩ :=
        respond_next executed <;>
        exact ⟨Kept.takeResponse c req response, by simp [isInner]⟩
  | raise next =>
      unfold respond at executed
      split at executed
      · cases executed
      · split at executed
        · cases executed
          exact Kept.emit c _
        · dsimp only at executed
          split at executed
          · cases executed
          · split at executed <;> cases executed
  | fault reason =>
      trivial

theorem quiet_sendContinue
    (c : ServerConnection)
    (req : Nat) :
    Quiet c (c.sendContinue req) := by
  unfold sendContinue
  split
  · trivial
  · dsimp only
    split
    · exact ⟨Kept.refl c, by simp⟩
    · split
      · exact ⟨Kept.refl c, by simp⟩
      · split
        · exact Kept.emit c _
        · exact ⟨Kept.write c _, by simp⟩

theorem quiet_sendChunk
    (c : ServerConnection)
    (req : Nat)
    (response : ServerResponse)
    (data : Data) :
    Quiet c (c.sendChunk req response data) := by
  have emitted := Kept.emit c (.gaveChunk req data)
  simp only [sendChunk]
  split
  · trivial
  · split
    · exact ⟨emitted, by simp⟩
    · split
      · exact ⟨emitted.trans (Kept.write _ _), by simp⟩
      · exact ⟨emitted.trans (Kept.setResponse _ _ _), by simp⟩

theorem quiet_sendFinalChunk
    (c : ServerConnection)
    (req : Nat)
    (response : ServerResponse)
    (data : Data) :
    Quiet c (c.sendFinalChunk req response data) := by
  have given :=
    (Kept.emit c (.gaveFinalChunk req data)).trans
      (Kept.setResponse _ req { response with completed := true })
  simp only [sendFinalChunk]
  split
  · trivial
  · split
    · exact ⟨given.trans (Kept.write _ _), by simp [isInner]⟩
    · exact ⟨given, by simp⟩

theorem quiet_responseSend
    (c : ServerConnection)
    (req : Nat)
    {send : ServerResponse → Step}
    (quiet : ∀ response, Quiet c (send response)) :
    Quiet c (c.responseSend req send) := by
  unfold responseSend
  split
  · exact ⟨Kept.refl c, by simp⟩
  · split
    · exact Kept.emit c _
    · split
      · exact quiet _
      · exact ⟨Kept.refl c, by simp⟩

theorem quiet_finishReturn (c : ServerConnection) :
    Quiet c c.finishReturn := by
  unfold finishReturn
  split
  · split
    · exact Quiet.of_plain (plain_doClose c _ _)
    · trivial
  · split
    · exact Quiet.of_plain (plain_checkIfIdle c)
    · split
      · exact ⟨Kept.refl c, by simp [isInner]⟩
      · exact ⟨Kept.refl c, by simp⟩

theorem quiet_requestErrorReturn
    (c : ServerConnection)
    (req : Nat) :
    Quiet c (c.requestErrorReturn req) := by
  unfold requestErrorReturn
  split
  · exact quiet_respond c _ _
  · split
    · exact ⟨Kept.setResponse c _ _, by simp⟩
    · exact ⟨Kept.refl c, by simp⟩

/-- Quiet code in the place of an inner frame, or called by the application. -/
theorem Receiving.quiet
    {c next : ServerConnection}
    {frames rest : List Frame}
    (top : List Frame)
    (receiving : Receiving c (top ++ rest))
    (topInner : ∀ frame ∈ top, isInner frame = true)
    (between : Between c (top ++ rest))
    (quiet : Quiet c (.next next frames)) :
    Receiving next (frames ++ rest) := by
  obtain ⟨kept, inner⟩ := quiet
  have nextBetween : Between next (top ++ rest) := by
    intro frame member nonempty
    rw [kept.parsing]
    exact between frame member nonempty
  exact (receiving.same kept between).replace top nextBetween topInner inner

/-! ## Every step -/

theorem silent_startClosing
    {c : ServerConnection}
    {req : Nat}
    (done : c.Done req) :
    (c.startClosing req).Silent := by
  unfold Done at done
  simp [startClosing, done, Silent, canRead, readIgnore]

theorem Receiving.writeNextResponse
    {c next : ServerConnection}
    {rest frames : List Frame}
    (receiving : Receiving c (.writeNextResponse :: rest))
    (executed : c.writeNextResponse = .next next frames) :
    Receiving next (frames ++ rest) := by
  have topInner :
      ∀ frame ∈ [Frame.writeNextResponse], isInner frame = true := by
    simp [isInner]
  have between := receiving.between (by simp)
  have headed :
      ∀ req others response middle,
        WritesHead c req others response middle → Kept c middle := by
    intro req others response middle writesHead
    cases writesHead with
    | keepAlive _ _ =>
        exact Kept.writeHead c req response
    | closing _ =>
        exact (Kept.writeHead c req response).trans (Kept.startClosing _ req)
  obtain ⟨req, others, given, shape, _, outcome⟩ :=
    writeNextResponse_next executed
  cases outcome with
  | finish writesHead _ =>
      exact receiving.quiet [_] topInner between
        ⟨headed _ _ _ _ writesHead, by simp [isInner]⟩
  | flush writesHead _ =>
      exact receiving.quiet [_] topInner between
        ⟨(headed _ _ _ _ writesHead).trans (Kept.writeChunks _ _ _),
          by simp⟩
  | hold nonempty =>
      have kept :
          Kept c
            ((c.writeHead req
              (c.prepared given).withoutTmpChunks).startClosing req) :=
        (Kept.writeHead c req _).trans (Kept.startClosing _ req)
      have done : c.Done req := receiving.followed shape nonempty
      have silent :=
        silent_startClosing
          ((Kept.writeHead c req
            (c.prepared given).withoutTmpChunks).done req |>.mpr done)
      exact (receiving.same kept between).hold (by simp [isInner])
        (kept.requests.trans shape) nonempty silent

/-- The frames of the loop of `on_read` are alone on the stack. -/
theorem Receiving.alone
    {c : ServerConnection}
    {frame : Frame}
    {rest : List Frame}
    (receiving : Receiving c (frame :: rest))
    (reader : isReader frame = true) :
    rest = [] :=
  receiving.readersLast.1 reader

theorem Receiving.onReadLoop
    {c next : ServerConnection}
    {buf : List Parsed}
    {frames : List Frame}
    (receiving : Receiving c [.onRead buf])
    (executed : c.onReadLoop buf = .next next frames) :
    Receiving next frames := by
  cases buf with
  | nil =>
      cases executed
      exact receiving.restack (by rfl) trivial (by simp [Between])
  | cons result rest =>
      obtain ⟨parsed, req, parses, reads⟩ := onReadLoop_next executed
      have idle : result.isDone = true → parsed.parsing = none := by
        intro done
        simp [parses.parsing, done]
      cases reads with
      | error _ =>
          apply receiving.parse parses rfl <;>
            simp [ReadersLast, isReader, Between, buffer]
      | headers _ =>
          apply receiving.parse parses rfl <;>
            simp [ReadersLast, Between]
      | upgrade _ _ =>
          apply receiving.parse parses rfl <;>
            simp [ReadersLast, isReader, Between, buffer]
      | again _ _ =>
          apply receiving.parse parses rfl
          · simp [ReadersLast]
          · intro frame member nonempty
            simp only [List.mem_singleton] at member
            subst frame
            cases done : result.isDone with
            | true =>
                exact idle done
            | false =>
                simp [buffer, done] at nonempty
      | route _ _ =>
          have readersLast :
              ReadersLast
                [.fire (.routeEvent req),
                  .routed req result.isDone
                    (if result.isDone then rest else [])] := by
            simp [ReadersLast, isReader]
          have between :
              Between parsed
                [.fire (.routeEvent req),
                  .routed req result.isDone
                    (if result.isDone then rest else [])] := by
            intro frame member nonempty
            simp only [List.mem_cons, List.not_mem_nil, or_false] at member
            rcases member with isFire | isRouted
            · simp [isFire, buffer] at nonempty
            · subst frame
              cases done : result.isDone with
              | true =>
                  exact idle done
              | false =>
                  simp [buffer, done] at nonempty
          exact (receiving.parse parses rfl readersLast between).same
            (Kept.setRequest parsed req _ rfl rfl) between

theorem Receiving.routed
    {c next : ServerConnection}
    {req : Nat}
    {done : Bool}
    {buf : List Parsed}
    {frames : List Frame}
    (receiving : Receiving c [.routed req done buf])
    (executed : c.routed req done buf = .next next frames) :
    Receiving next frames := by
  have left : buf ≠ [] → c.parsing = none :=
    receiving.between (by simp) (.routed req done buf) (by simp)
  simp only [ServerConnection.routed] at executed
  split at executed
  · cases executed
    refine receiving.restack (by rfl) (by simp [ReadersLast, isReader]) ?_
    simpa [Between, buffer] using left
  · split at executed
    · cases executed
      refine receiving.restack (by rfl) (by simp [ReadersLast, isReader]) ?_
      simpa [Between, buffer] using left
    · cases executed
      refine receiving.restack (by rfl) (by simp [ReadersLast]) ?_
      simpa [Between, buffer] using left

theorem Receiving.received
    {c next : ServerConnection}
    {req : Nat}
    {done : Bool}
    {buf : List Parsed}
    {frames : List Frame}
    (receiving : Receiving c [.received req done buf])
    (executed : c.received req done buf = .next next frames) :
    Receiving next frames := by
  have between := receiving.between (by simp)
  have left : buf ≠ [] → c.parsing = none :=
    between (.received req done buf) (by simp)
  have goesOn : Receiving c [.onRead buf] := by
    refine receiving.restack (by rfl) (by simp [ReadersLast]) ?_
    simpa [Between, buffer] using left
  simp only [ServerConnection.received] at executed
  split at executed
  · cases executed
    exact goesOn
  · split at executed
    · cases executed
      refine receiving.restack (by rfl) (by simp [ReadersLast, isReader]) ?_
      simpa [Between, buffer] using left
    · split at executed
      · cases executed
        have ignored := receiving.same (Kept.readIgnore c) between
        exact ignored.restack (by rfl) trivial (by simp [Between])
      · cases executed
        exact goesOn

theorem Receiving.finishRequest
    {c next : ServerConnection}
    {rest frames : List Frame}
    (receiving : Receiving c (.finishRequest :: rest))
    (executed : c.finishRequest = .next next frames) :
    Receiving next (frames ++ rest) := by
  have topInner :
      ∀ frame ∈ [Frame.finishRequest], isInner frame = true := by
    simp [isInner]
  have between := receiving.between (by simp)
  obtain ⟨req, others, shape, _, ⟨_, rfl, rfl⟩ | ⟨_, rfl, rfl⟩⟩ :=
    finishRequest_next executed
  · exact receiving.quiet [_] topInner between
      ⟨Kept.setRequest c req _ rfl rfl, by simp⟩
  · exact (receiving.cleanup between shape).replace [_]
      between topInner (by simp [isInner])

theorem Receiving.dropRequests
    {c next : ServerConnection}
    {error : Option ErrorCode}
    {returns : DropReturn}
    {rest frames : List Frame}
    (receiving : Receiving c (.dropRequests error returns :: rest))
    (executed : c.dropRequests error returns = .next next frames) :
    Receiving next (frames ++ rest) := by
  have between := receiving.between (by simp)
  unfold ServerConnection.dropRequests at executed
  split at executed
  · rename_i req others shape
    cases executed
    have cleaned :=
      (receiving.cleanup between shape).same
        (Kept.emit _ (.dropped req error)) between
    have cleanedBetween := cleaned.between (by simp)
    have topInner :
        ∀ frame ∈ [Frame.fire (.finishEvent req), .dropNotify req error],
          isInner frame = true := by
      simp [isInner]
    change
      Receiving _
        ([.fire (.finishEvent req), .dropNotify req error] ++
          .dropRequests error returns :: rest)
    exact cleaned.replace [] cleanedBetween (by simp) topInner
  · rename_i empty
    split at executed
    · cases executed
      exact receiving.replace [_] between (by simp [isInner])
        (by simp)
    · cases executed
      exact receiving.quiet [_] (by simp [isInner]) between
        (Quiet.of_plain (plain_remove c))
    · rename_i req tmpChunks
      unfold flushResponse at executed
      split at executed
      · cases executed
        exact receiving.restore _ empty (by simp [isInner])
      · cases executed
        have flushed := receiving.restore [] empty (by simp)
        have restBetween :
            Between { c with requests := [req] } rest :=
          fun frame member =>
            between frame (List.mem_cons_of_mem _ member)
        exact flushed.same (Kept.writeChunks _ req tmpChunks) restBetween

theorem Receiving.tick
    {frame : Frame}
    {rest frames : List Frame}
    {c next : ServerConnection}
    (receiving : Receiving c (frame :: rest))
    (executed : code frame c = .next next frames) :
    Receiving next (frames ++ rest) := by
  have inside :
      isInner frame = true →
      Quiet c (code frame c) →
      Receiving next (frames ++ rest) := by
    intro inner quiet
    rw [executed] at quiet
    refine receiving.quiet [frame] (by simpa using inner)
      (receiving.between ?_) quiet
    intro buf shape
    simp only [List.cons.injEq] at shape
    simp [shape.1, isInner] at inner
  cases frame with
  | onRead buf =>
      have alone := receiving.alone rfl
      subst rest
      simpa using receiving.onReadLoop executed
  | routed req done buf =>
      have alone := receiving.alone rfl
      subst rest
      simpa using receiving.routed executed
  | received req done buf =>
      have alone := receiving.alone rfl
      subst rest
      simpa using receiving.received executed
  | requestError req error =>
      exact inside rfl ⟨Kept.readIgnore c, by simp [isInner]⟩
  | requestErrorReturn req =>
      exact inside rfl (quiet_requestErrorReturn c req)
  | writeNextResponse =>
      exact receiving.writeNextResponse executed
  | finishRequest =>
      exact receiving.finishRequest executed
  | finishReturn =>
      exact inside rfl (quiet_finishReturn c)
  | dropRequests error returns =>
      exact receiving.dropRequests executed
  | _ =>
      exact inside rfl (Quiet.of_plain (plain_code c rfl))

/-- What the application calls leaves the deque and the parser as they are. -/
theorem quiet_accept
    {input : Input}
    {frame : Option Frame}
    {c : ServerConnection}
    {step : Step}
    (accepted : accept input frame c = some step)
    (notUpgrade : ∀ req, input ≠ .upgrade req)
    (notRead : ∀ buf, input ≠ .onRead buf)
    (notReadError : ∀ error, input ≠ .onReadError error) :
    Quiet c step := by
  cases input with
  | respond req response =>
      simp only [accept] at accepted
      split at accepted
      · cases accepted
      · cases accepted
        unfold requestRespond
        split
        · exact quiet_respond c req response
        · exact ⟨Kept.refl c, by simp⟩
  | sendContinue req =>
      cases accepted
      unfold requestSendContinue
      split
      · exact quiet_sendContinue c req
      · exact ⟨Kept.refl c, by simp⟩
  | sendChunk req data =>
      cases accepted
      exact quiet_responseSend c req
        fun response => quiet_sendChunk c req response data
  | sendFinalChunk req data =>
      cases accepted
      exact quiet_responseSend c req
        fun response => quiet_sendFinalChunk c req response data
  | gracefulStop =>
      cases accepted
      exact quiet_gracefulStop c
  | enablePartial req =>
      cases accepted
      exact ⟨Kept.setRequest c req _ rfl rfl, by simp⟩
  | upgrade req =>
      exact (notUpgrade req rfl).elim
  | onRead buf =>
      exact (notRead buf rfl).elim
  | onReadError error =>
      exact (notReadError error rfl).elim
  | _ =>
      exact Quiet.of_plain (plain_accept rfl accepted)

theorem boundary_between
    {c : ServerConnection}
    {stack : List Frame}
    (receiving : Receiving c stack)
    (boundary : machine.atBoundary stack = true) :
    Between c stack := by
  apply receiving.between
  rintro buf rfl
  simp [CallMachine.Machine.atBoundary, machine, isCallback] at boundary

theorem Receiving.input
    {input : Input}
    {stack frames : List Frame}
    {c next : ServerConnection}
    (receiving : Receiving c stack)
    (boundary : machine.atBoundary stack = true)
    (accepted : accept input stack.head? c = some (.next next frames)) :
    Receiving next (frames ++ stack) := by
  have between := boundary_between receiving boundary
  have calm :
      (∀ req, input ≠ .upgrade req) →
      (∀ buf, input ≠ .onRead buf) →
      (∀ error, input ≠ .onReadError error) →
      Receiving next (frames ++ stack) := by
    intro notUpgrade notRead notReadError
    exact receiving.quiet [] (by simp) between
      (quiet_accept accepted notUpgrade notRead notReadError)
  cases input with
  | upgrade req =>
      simp only [accept, Option.some.injEq, requestUpgrade] at accepted
      split at accepted
      · cases accepted
        exact receiving
      · split at accepted
        · cases accepted
          exact receiving
        · unfold ServerConnection.upgrade at accepted
          split at accepted
          · rename_i alone
            cases accepted
            have handedOver :
                Kept c
                  ({ c with
                    stream := { c.stream with listener := false }
                    idleTimer := none }.emit (.upgraded req)) :=
              ⟨rfl, rfl, rfl, fun _ => Iff.rfl, fun _ => Iff.rfl,
                fun _ => by simp [Silent, canRead, emit]⟩
            have cleaned :=
              (receiving.same handedOver between).cleanup between alone
            exact cleaned.replace [] between (by simp) (by simp [isInner])
          · cases accepted
  | onRead buf =>
      cases stack with
      | nil =>
          simp only [List.head?_nil, accept] at accepted
          split at accepted
          · rename_i readable
            cases accepted
            exact
              { receiving with
                located := by simpa [held, held?] using receiving.located
                heldApart := by simp [held, held?]
                heldOnce := List.nodup_nil
                readersLast := by simp [ReadersLast]
                buffered :=
                  Or.inr ⟨buf, rfl, by simp [Silent, readable]⟩ }
          · cases accepted
      | cons frame rest =>
          simp [accept] at accepted
  | onReadError error =>
      cases stack with
      | nil =>
          simp only [List.head?_nil, accept] at accepted
          split at accepted
          · simp only [Option.some.injEq] at accepted
            obtain ⟨req, rfl, fails⟩ := onReadError_next accepted
            have ended :
                Kept c
                  { c with stream := { c.stream with ended := true } } :=
              ⟨rfl, rfl, rfl, fun _ => Iff.rfl, fun _ => Iff.rfl,
                fun _ => by simp [Silent, canRead]⟩
            have silent :
                ({ c with
                  stream := { c.stream with
                    ended := true } } : ServerConnection).Silent := by
              simp [Silent, canRead]
            simpa using
              (receiving.same ended between).readFails silent fails
                (by simp [isInner])
          · cases accepted
      | cons frame rest =>
          simp [accept] at accepted
  | _ =>
      apply calm <;> simp

/-- A callback returns. -/
theorem Receiving.ret
    {fired : Callback}
    {rest : List Frame}
    {c : ServerConnection}
    (receiving : Receiving c (.callback fired :: rest)) :
    Receiving c rest := by
  have between := receiving.between (by simp)
  have popped : Receiving c ([] ++ rest) :=
    receiving.replace [_] between (by simp [isInner]) (by simp)
  exact popped

/-- An exception reaches the application. -/
theorem Receiving.threw
    {exception : Exception}
    {stack : List Frame}
    {c : ServerConnection}
    (receiving : Receiving c stack)
    (boundary : machine.atBoundary stack = true) :
    Receiving (c.emit (.threw exception)) stack :=
  receiving.same (Kept.emit c _) (boundary_between receiving boundary)

theorem receiving_initial (config : ConnectionConfig) :
    Receiving (initial config) [] where
  sorted := by simp [initial]
  requestsBelow := by simp [initial]
  attachedBelow := by simp [initial, Attached]
  located := by simp [initial, Attached]
  heldApart := by simp [held]
  heldOnce := by simp [held]
  unfinished := by simp [initial]
  parsingNewest := by simp [initial]
  parsingDone := by simp [initial]
  parsingPlace := by simp [initial]
  readersLast := trivial
  buffered := by simp [Between]

end UniEventHttp.ServerConnection
