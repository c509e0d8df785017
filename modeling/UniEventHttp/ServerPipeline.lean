import UniEventHttp.History
import UniEventHttp.ServerSuspension

namespace UniEventHttp.ServerConnection

/-!
# The order of the pieces

Only the first request of the deque is written to.  So the pieces on the stream
are sorted by request, and the pieces of one request form a block: interim
responses, a head, chunks and a final chunk.  This holds where the application
responds from outside or from the callbacks that deliver a request, and not from
those by which a request leaves the connection.
-/

open History

/-! ## Blocks -/

/-- A head for the request is among the pieces. -/
def HeadIn (req : Nat) (pieces : List Piece) : Prop :=
  ∃ response, Piece.head req response ∈ pieces

/-- A final chunk for the request is among the pieces. -/
def FinalIn (req : Nat) (pieces : List Piece) : Prop :=
  ∃ data, Piece.finalChunk req data ∈ pieces

/-- The piece may follow the earlier ones in the block of its request. -/
def Admissible (earlier : List Piece) : Piece → Prop
  | .continue100 req => ¬ HeadIn req earlier
  | .head req _ => ¬ HeadIn req earlier
  | .chunk req _ => HeadIn req earlier ∧ ¬ FinalIn req earlier
  | .finalChunk req _ => HeadIn req earlier ∧ ¬ FinalIn req earlier

/--
The block of one request: interim responses, then at most one head, then chunks
of that response, then at most one final chunk.
-/
def IsBlock (req : Nat) (pieces : List Piece) : Prop :=
  ∃ (continues : Nat) (head : Option ServerResponse)
    (chunks : List Data) (final : Option Data),
    pieces =
        List.replicate continues (.continue100 req) ++
          head.toList.map (.head req) ++
          chunks.map (.chunk req) ++
          final.toList.map (.finalChunk req) ∧
      (head = none → chunks = [] ∧ final = none)

/-- Pieces of one request that are admissible one after the other form a block. -/
theorem isBlock_of_each
    {req : Nat}
    {pieces : List Piece}
    (ofReq : ∀ piece ∈ pieces, piece.req = req)
    (each : Each Admissible pieces) :
    IsBlock req pieces := by
  induction pieces using List.reverseRecOn with
  | nil =>
      exact ⟨0, none, [], none, by simp, by simp⟩
  | append_singleton front last inductionHypothesis =>
      obtain ⟨old, new⟩ := each_snoc.mp each
      obtain ⟨continues, head, chunks, final, shape, headless⟩ :=
        inductionHypothesis
          (fun piece member => ofReq piece (List.mem_append_left _ member)) old
      have isReq : last.req = req := ofReq last (by simp)
      have headIn : HeadIn req front ↔ head.isSome = true := by
        rw [shape]
        cases head <;> simp [HeadIn]
      have finalIn : FinalIn req front ↔ final.isSome = true := by
        rw [shape]
        cases final <;> simp [FinalIn]
      cases last with
      | continue100 other =>
          have same : other = req := isReq
          subst other
          have noHead : head = none := by
            simpa [Admissible, headIn] using new
          obtain ⟨rfl, rfl⟩ := headless noHead
          subst noHead
          refine ⟨continues + 1, none, [], none, ?_, by simp⟩
          simp [shape, List.replicate_succ']
      | head other response =>
          have same : other = req := isReq
          subst other
          have noHead : head = none := by
            simpa [Admissible, headIn] using new
          obtain ⟨rfl, rfl⟩ := headless noHead
          subst noHead
          exact ⟨continues, some response, [], none, by simp [shape], by simp⟩
      | chunk other data =>
          have same : other = req := isReq
          subst other
          have noFinal : final = none := by
            simpa [Admissible, headIn, finalIn] using new.2
          have hasHead : head ≠ none := by
            have := headIn.mp new.1
            rintro rfl
            simp at this
          subst noFinal
          exact ⟨continues, head, chunks ++ [data], none, by simp [shape],
            fun noHead => (hasHead noHead).elim⟩
      | finalChunk other data =>
          have same : other = req := isReq
          subst other
          have noFinal : final = none := by
            simpa [Admissible, headIn, finalIn] using new.2
          have hasHead : head ≠ none := by
            have := headIn.mp new.1
            rintro rfl
            simp at this
          subst noFinal
          exact ⟨continues, head, chunks, some data, by simp [shape],
            fun noHead => (hasHead noHead).elim⟩

/-- The pieces of one request are admissible among themselves. -/
theorem admissible_filter
    {pieces : List Piece}
    (req : Nat)
    (each : Each Admissible pieces) :
    Each Admissible
      (pieces.filter fun piece => decide (piece.req = req)) := by
  refine each.filter ?_
  intro earlier piece kept admissible
  have isReq : piece.req = req := by
    simpa using kept
  have headIn :
      HeadIn req (earlier.filter fun piece => decide (piece.req = req)) ↔
        HeadIn req earlier := by
    simp [HeadIn, Piece.req]
  have finalIn :
      FinalIn req (earlier.filter fun piece => decide (piece.req = req)) ↔
        FinalIn req earlier := by
    simp [FinalIn, Piece.req]
  cases piece <;> simp only [Piece.req] at isReq <;> subst isReq <;>
    simpa only [Admissible, headIn, finalIn] using admissible

/-- The pieces are one block for each request, in the order of arrival. -/
def InBlocks (c : ServerConnection) : Prop :=
  (∀ req, IsBlock req (c.written.filter fun piece => decide (piece.req = req))) ∧
    c.written =
      (List.range c.nextId).flatMap fun req =>
        c.written.filter fun piece => decide (piece.req = req)

/-! ## What has been written -/

/-- The pieces written so far, and what they say about the responses. -/
structure Logged (c : ServerConnection) : Prop where
  sorted : (c.written.map Piece.req).Pairwise (· ≤ ·)
  below : ∀ piece ∈ c.written, piece.req < c.nextId
  started : ∀ req, c.Started req → c.Responded req
  finals : ∀ req, FinalIn req c.written → c.Completed req
  admissible : Each Admissible c.written

theorem Logged.inBlocks
    {c : ServerConnection}
    (logged : Logged c) :
    InBlocks c := by
  refine ⟨?_, eq_flatMap_range_of_sorted Piece.req c.nextId logged.sorted
    logged.below⟩
  intro req
  apply isBlock_of_each
  · intro piece member
    simpa using (List.mem_filter.mp member).2
  · exact admissible_filter req logged.admissible

theorem Logged.same
    {c next : ServerConnection}
    (logged : Logged c)
    (written : next.written = c.written)
    (nextId : c.nextId ≤ next.nextId)
    (responded : ∀ req, c.Started req → c.Responded req → next.Responded req)
    (completed : ∀ req, c.Started req → c.Completed req → next.Completed req) :
    Logged next where
  sorted := by
    rw [written]
    exact logged.sorted
  below piece member := by
    rw [written] at member
    have := logged.below piece member
    omega
  started req started := by
    rw [Started, written] at started
    exact responded req started (logged.started req started)
  finals req final := by
    rw [written] at final
    refine completed req ?_ (logged.finals req final)
    obtain ⟨data, member⟩ := final
    obtain ⟨earlier, later, shape⟩ := List.append_of_mem member
    obtain ⟨response, head⟩ := (logged.admissible earlier _ later shape).1
    exact ⟨response, by rw [shape]; exact List.mem_append_left _ head⟩
  admissible := by
    rw [written]
    exact logged.admissible

/-- A piece of the greatest request so far is written. -/
theorem Logged.write
    {c : ServerConnection}
    {piece : Piece}
    (logged : Logged c)
    (reached : ∀ earlier ∈ c.written, earlier.req ≤ piece.req)
    (below : piece.req < c.nextId)
    (admissible : Admissible c.written piece)
    (responded :
      ∀ response, piece = .head piece.req response → c.Responded piece.req)
    (completed :
      ∀ data, piece = .finalChunk piece.req data → c.Completed piece.req) :
    Logged (c.write piece) where
  sorted := by
    rw [written_write, List.map_append, List.pairwise_append]
    refine ⟨logged.sorted, by simp, ?_⟩
    intro req member other isPiece
    obtain ⟨earlier, inWritten, rfl⟩ := List.mem_map.mp member
    simp only [List.map_cons, List.map_nil, List.mem_singleton] at isPiece
    rw [isPiece]
    exact reached earlier inWritten
  below other member := by
    rw [written_write] at member
    rcases List.mem_append.mp member with old | new
    · exact logged.below other old
    · simp only [List.mem_singleton] at new
      rw [new]
      exact below
  started req := by
    rintro ⟨response, member⟩
    rw [written_write] at member
    rcases List.mem_append.mp member with old | new
    · exact logged.started req ⟨response, old⟩
    · simp only [List.mem_singleton] at new
      have isReq : piece.req = req := by
        rw [← new, Piece.req]
      rw [← isReq]
      exact responded response (by rw [isReq, new])
  finals req := by
    rintro ⟨data, member⟩
    rw [written_write] at member
    rcases List.mem_append.mp member with old | new
    · exact logged.finals req ⟨data, old⟩
    · simp only [List.mem_singleton] at new
      have isReq : piece.req = req := by
        rw [← new, Piece.req]
      rw [← isReq]
      exact completed data (by rw [isReq, new])
  admissible := by
    rw [written_write]
    exact each_snoc.mpr ⟨logged.admissible, admissible⟩

/-- Chunks of a started response that is not completed. -/
theorem Logged.writeChunks
    {c : ServerConnection}
    {req : Nat}
    (chunks : List Data)
    (logged : Logged c)
    (reached : ∀ earlier ∈ c.written, earlier.req ≤ req)
    (below : req < c.nextId)
    (started : c.Started req)
    (unfinished : ¬ c.Completed req) :
    Logged (c.writeChunks req chunks) := by
  induction chunks generalizing c with
  | nil =>
      exact logged
  | cons data rest inductionHypothesis =>
      have reachedChunk :
          ∀ earlier ∈ c.written,
            earlier.req ≤ (Piece.chunk req data).req := reached
      have wrote : Logged (c.write (.chunk req data)) := by
        apply logged.write reachedChunk below
        · exact ⟨started, fun final => unfinished (logged.finals req final)⟩
        · simp
        · simp
      apply inductionHypothesis wrote
      · intro earlier member
        rw [written_write] at member
        rcases List.mem_append.mp member with old | new
        · exact reached earlier old
        · simp only [List.mem_singleton] at new
          simp [new, Piece.req]
      · exact below
      · obtain ⟨response, head⟩ := started
        exact ⟨response, by simp [head]⟩
      · exact unfinished

/-! ## The condition on the application -/

/-- The callbacks from which responses are given. -/
def responds : Callback → Bool
  | .routeEvent _ => true
  | .partialEvent _ _ => true
  | .receiveEvent _ => true
  | .requestEvent _ => true
  | _ => false

/-- The call gives a response or writes a part of it. -/
def isResponseCall : Label → Bool
  | .input (.respond _ _) => true
  | .input (.sendContinue _) => true
  | .input (.sendChunk _ _) => true
  | .input (.sendFinalChunk _ _) => true
  | _ => false

/-- The application may respond in this callback. -/
def mayRespond : Frame → Bool
  | .callback fired => responds fired
  | _ => false

/-- Responses are given from outside or from the callbacks that deliver a request. -/
def RespondsOnDelivery (config : Config) (label : Label) : Prop :=
  isResponseCall label = true →
  ∀ frame ∈ config.stack.head?, mayRespond frame = true

instance (config : Config) (label : Label) :
    Decidable (RespondsOnDelivery config label) :=
  inferInstanceAs (Decidable (_ → ∀ frame ∈ config.stack.head?, _))

/-- Where the frame lies above a suspended operation, the deque is empty. -/
def delivers (c : ServerConnection) : Frame → Prop
  | .fire fired => responds fired = true
  | .callback fired => responds fired = true
  | .dropNotify req _ => ¬ c.Done req
  | _ => False

/-- The deque is empty while a callback for responses runs in an operation. -/
def Emptied (c : ServerConnection) : List Frame → Prop
  | [] => True
  | frame :: below =>
      (delivers c frame → suspended below = true → c.requests = []) ∧
        Emptied c below

theorem Emptied.below
    {c : ServerConnection}
    {above below : List Frame}
    (emptied : Emptied c (above ++ below)) :
    Emptied c below := by
  induction above with
  | nil =>
      exact emptied
  | cons frame rest inductionHypothesis =>
      exact inductionHypothesis emptied.2

theorem Emptied.push
    {c : ServerConnection}
    {frames below : List Frame}
    (emptied : Emptied c below)
    (empty : ∀ frame ∈ frames, delivers c frame → c.requests = []) :
    Emptied c (frames ++ below) := by
  induction frames with
  | nil =>
      exact emptied
  | cons frame rest inductionHypothesis =>
      refine ⟨fun isDelivery _ => empty frame (by simp) isDelivery,
        inductionHypothesis ?_⟩
      intro other member
      exact empty other (List.mem_cons_of_mem _ member)

theorem emptied_of_not_suspended
    {c : ServerConnection}
    {stack : List Frame}
    (notSuspended : suspended stack = false) :
    Emptied c stack := by
  induction stack with
  | nil =>
      trivial
  | cons frame rest inductionHypothesis =>
      simp only [suspended_cons, Bool.or_eq_false_iff] at notSuspended
      refine ⟨?_, inductionHypothesis notSuspended.2⟩
      intro _ isSuspended
      simp [notSuspended.2] at isSuspended

theorem Emptied.same
    {c next : ServerConnection}
    {stack : List Frame}
    (emptied : Emptied c stack)
    (requests : c.requests = [] → next.requests = [])
    (done : ∀ req, next.Done req ↔ c.Done req) :
    Emptied next stack := by
  have wasDelivery : ∀ frame, delivers next frame → delivers c frame := by
    intro frame isDelivery
    unfold delivers at isDelivery ⊢
    split <;> simp_all
  induction stack with
  | nil =>
      trivial
  | cons frame rest inductionHypothesis =>
      refine ⟨?_, inductionHypothesis emptied.2⟩
      intro isDelivery isSuspended
      exact requests
        (emptied.1 (wasDelivery frame isDelivery) isSuspended)

/-- A call for a response inside an operation finds the deque empty. -/
theorem Emptied.responseCall
    {c : ServerConnection}
    {stack : List Frame}
    {label : Label}
    (emptied : Emptied c stack)
    (permitted : RespondsOnDelivery ⟨c, stack, none⟩ label)
    (call : isResponseCall label = true)
    (isSuspended : suspended stack = true) :
    c.requests = [] := by
  cases stack with
  | nil =>
      simp at isSuspended
  | cons frame below =>
      have delivery := permitted call frame rfl
      cases frame with
      | callback fired =>
          exact emptied.1 delivery (by simpa [isWindow] using isSuspended)
      | _ =>
          cases delivery

/-- So no response is given or completed inside an operation. -/
theorem noNestedResponse_of_emptied
    {c : ServerConnection}
    {stack : List Frame}
    {label : Label}
    (emptied : Emptied c stack)
    (permitted : RespondsOnDelivery ⟨c, stack, none⟩ label) :
    NoNestedResponse ⟨c, stack, none⟩ label := by
  intro req member isSuspended
  have call : isResponseCall label = true := by
    unfold responseCall? at member
    split at member <;> simp_all [isResponseCall]
  simp [emptied.responseCall permitted call isSuspended]

/-! ## The invariant of the pipeline -/

/-- Where the written pieces stand relative to the deque. -/
structure Pipelined (c : ServerConnection) (stack : List Frame) : Prop where
  logged : Logged c
  emptied : Emptied c stack
  reached : ∀ piece ∈ c.written, ∀ req ∈ c.requests, piece.req ≤ req
  heldReached : ∀ piece ∈ c.written, ∀ req ∈ held stack, piece.req ≤ req
  returned :
    Frame.finishReturn ∈ stack →
    ∀ piece ∈ c.written, ∀ req ∈ c.requests, piece.req < req
  writing :
    stack.head? = some .writeNextResponse →
    ∀ req ∈ c.requests.head?, ¬ c.Started req
  waiting :
    suspended stack = false →
    stack.head? ≠ some .writeNextResponse →
    ∀ req ∈ c.requests.head?,
      c.Attached req → c.Responded req → c.Started req
  heldStarted : ∀ req ∈ held stack, c.Started req

/-- The second state has the deque, the requests and the pieces of the first. -/
structure SamePieces (c next : ServerConnection) : Prop where
  requests : next.requests = c.requests
  nextId : next.nextId = c.nextId
  written : next.written = c.written
  attached : ∀ req, next.Attached req ↔ c.Attached req
  responded : ∀ req, next.Responded req ↔ c.Responded req
  completed : ∀ req, next.Completed req ↔ c.Completed req
  done : ∀ req, next.Done req ↔ c.Done req

namespace SamePieces

theorem started
    {c next : ServerConnection}
    (same : SamePieces c next)
    (req : Nat) :
    next.Started req ↔ c.Started req := by
  simp [Started, same.written]

theorem logged
    {c next : ServerConnection}
    (same : SamePieces c next)
    (logged : Logged c) :
    Logged next :=
  logged.same same.written (Nat.le_of_eq same.nextId.symm)
    (fun req _ => (same.responded req).mpr)
    (fun req _ => (same.completed req).mpr)

/-- Nothing is written and no request changes. -/
theorem of_store
    {c next : ServerConnection}
    (requests : next.requests = c.requests)
    (nextId : next.nextId = c.nextId)
    (written : next.written = c.written)
    (store : next.store = c.store) :
    SamePieces c next :=
  ⟨requests, nextId, written,
    fun _ => by simp [Attached, store], fun _ => by simp [Responded, store],
    fun _ => by simp [Completed, store], fun _ => by simp [Done, store]⟩

theorem refl (c : ServerConnection) : SamePieces c c :=
  of_store rfl rfl rfl rfl

theorem trans
    {first second third : ServerConnection}
    (one : SamePieces first second)
    (two : SamePieces second third) :
    SamePieces first third where
  requests := two.requests.trans one.requests
  nextId := two.nextId.trans one.nextId
  written := two.written.trans one.written
  attached req := (two.attached req).trans (one.attached req)
  responded req := (two.responded req).trans (one.responded req)
  completed req := (two.completed req).trans (one.completed req)
  done req := (two.done req).trans (one.done req)

theorem emit
    (c : ServerConnection)
    {event : Event}
    (noPiece : piece? event = none) :
    SamePieces c (c.emit event) :=
  of_store rfl rfl (by simp [noPiece]) rfl

theorem of_plain
    {c next : ServerConnection}
    (plain : Plain c next) :
    SamePieces c next := by
  refine of_store plain.requests plain.nextId ?_ plain.store
  obtain ⟨events, trace, isPlain⟩ := plain.trace
  have none : events.filterMap piece? = [] := by
    rw [List.filterMap_eq_nil_iff]
    intro event member
    have := isPlain event member
    cases event <;> simp_all [isPlainEvent, piece?]
  simp [ServerConnection.written, trace, none]

/-- One request changes in what the pieces do not depend on. -/
theorem setRequest
    (c : ServerConnection)
    (req : Nat)
    (request : ServerRequest)
    (connection : request.connection = (c.store req).connection)
    (response : request.response = (c.store req).response)
    (isDone : request.isDone = (c.store req).isDone) :
    SamePieces c (c.setRequest req request) := by
  refine ⟨rfl, rfl, rfl, ?_, ?_, ?_, ?_⟩ <;>
    intro other <;> by_cases same : other = req <;>
    simp [Attached, Responded, Completed, Done,
      ServerRequest.responseCompleted, same, connection, response, isDone]

/-- A response changes in what the pieces do not depend on. -/
theorem setResponse
    (c : ServerConnection)
    (req : Nat)
    {stored response : ServerResponse}
    (isStored : (c.store req).response = some stored)
    (completed : response.completed = stored.completed) :
    SamePieces c (c.setResponse req response) := by
  refine ⟨rfl, rfl, rfl, ?_, ?_, ?_, ?_⟩ <;>
    intro other <;> by_cases same : other = req <;>
    simp [Attached, Responded, Completed, Done,
      ServerRequest.responseCompleted, same, isStored, completed]

end SamePieces

/-- The invariant is kept where deque, requests and pieces stay as they are. -/
theorem Pipelined.replace
    {c next : ServerConnection}
    {frames rest : List Frame}
    (top : List Frame)
    (pipelined : Pipelined c (top ++ rest))
    (same : SamePieces c next)
    (topInner : ∀ frame ∈ top, isInner frame = true)
    (topNotWriting : Frame.writeNextResponse ∉ top)
    (topWindows : suspended top = false ∨ c.requests = [])
    (emptied : Emptied next (frames ++ rest))
    (inner : ∀ frame ∈ frames, isInner frame = true)
    (noReturn : Frame.finishReturn ∉ frames)
    (notWriting : Frame.writeNextResponse ∉ frames ++ rest) :
    Pipelined next (frames ++ rest) where
  logged := same.logged pipelined.logged
  emptied := emptied
  reached := by
    rw [same.written, same.requests]
    exact pipelined.reached
  heldReached := by
    rw [same.written, held_inner inner, ← held_inner topInner]
    exact pipelined.heldReached
  returned member := by
    rw [same.written, same.requests]
    apply pipelined.returned
    rcases List.mem_append.mp member with inFrames | inRest
    · exact (noReturn inFrames).elim
    · exact List.mem_append_right _ inRest
  writing isHead := (notWriting (List.mem_of_mem_head? isHead)).elim
  waiting notSuspended _ req first attached responded := by
    rw [same.requests] at first
    rw [same.attached] at attached
    rw [same.responded] at responded
    rw [same.started]
    refine pipelined.waiting ?_ ?_ req first attached responded
    · simp only [suspended_append, Bool.or_eq_false_iff] at notSuspended ⊢
      rcases topWindows with topFree | empty
      · exact ⟨topFree, notSuspended.2⟩
      · simp [empty] at first
    · intro isHead
      rcases List.mem_append.mp (List.mem_of_mem_head? isHead) with
        inTop | inRest
      · exact topNotWriting inTop
      · exact notWriting (List.mem_append_right _ inRest)
  heldStarted req member := by
    rw [same.started]
    apply pipelined.heldStarted req
    rw [held_inner topInner]
    rwa [held_inner inner] at member

/-! ## Responding -/

theorem Pipelined.respond
    {c next : ServerConnection}
    {req : Nat}
    {response : ServerResponse}
    {frames rest : List Frame}
    (top : List Frame)
    (pipelined : Pipelined c (top ++ rest))
    (topInner : ∀ frame ∈ top, isInner frame = true)
    (topNotWriting : Frame.writeNextResponse ∉ top)
    (topWindows : suspended top = false)
    (restNotWriting : Frame.writeNextResponse ∉ rest)
    (executed : c.respond req response = .next next frames) :
    Pipelined next (frames ++ rest) := by
  obtain ⟨_, unanswered, rfl, front, others, shape, outcome⟩ :=
    respond_next executed
  have responded := responded_takeResponse c req response
  have written : (c.takeResponse req response).written = c.written := by
    unfold takeResponse
    simp only [written_emit, piece?, Option.toList_none, List.append_nil]
    rfl
  have started :
      ∀ other, (c.takeResponse req response).Started other ↔ c.Started other := by
    simp [Started, written]
  have logged : Logged (c.takeResponse req response) := by
    apply pipelined.logged.same written (Nat.le_refl _)
    · intro other _ wasResponded
      exact (responded other).mpr (Or.inr wasResponded)
    · intro other wasStarted completed
      have different : other ≠ req := by
        rintro rfl
        exact unanswered (pipelined.logged.started other wasStarted)
      simpa [Completed, takeResponse, emit, setResponse, setRequest,
        different] using completed
  have attached :
      ∀ other,
        (c.takeResponse req response).Attached other ↔ c.Attached other :=
    (Kept.takeResponse c req response).attached
  have emptied : Emptied (c.takeResponse req response) rest :=
    pipelined.emptied.below.same id (Kept.takeResponse c req response).done
  have kept :
      ∀ frames,
        (∀ frame ∈ frames, frame = Frame.writeNextResponse) →
        ((frames ++ rest).head? = some .writeNextResponse →
          ∀ other ∈ c.requests.head?, ¬ c.Started other) →
        (suspended (frames ++ rest) = false →
          (frames ++ rest).head? ≠ some .writeNextResponse →
          ∀ other ∈ c.requests.head?,
            c.Attached other →
            (c.takeResponse req response).Responded other →
            c.Started other) →
        Pipelined (c.takeResponse req response) (frames ++ rest) := by
    intro frames onlyWriting writing waiting
    have inner : ∀ frame ∈ frames, isInner frame = true := by
      intro frame member
      rw [onlyWriting frame member]
      rfl
    have sameHeld : held (frames ++ rest) = held (top ++ rest) := by
      rw [held_inner inner, held_inner topInner]
    refine
      { logged := logged
        emptied := emptied.push fun frame member => ?_
        reached := ?_
        heldReached := ?_
        returned := ?_
        writing := ?_
        waiting := ?_
        heldStarted := ?_ }
    · rw [onlyWriting frame member]
      simp [delivers]
    · rw [written]
      exact pipelined.reached
    · rw [written, sameHeld]
      exact pipelined.heldReached
    · intro member
      rw [written]
      apply pipelined.returned
      rcases List.mem_append.mp member with inFrames | inRest
      · cases onlyWriting _ inFrames
      · exact List.mem_append_right _ inRest
    · intro isHead other first
      rw [started]
      exact writing isHead other first
    · intro notSuspended notWriting other first isAttached isResponded
      rw [started]
      exact waiting notSuspended notWriting other first
        ((attached other).mp isAttached) isResponded
    · intro other member
      rw [started]
      apply pipelined.heldStarted
      rwa [← sameHeld]
  rcases outcome with ⟨isFront, rfl⟩ | ⟨notFront, rfl⟩
  · apply kept [.writeNextResponse] (by simp)
    · intro _ other first isStarted
      have isReq : other = req := by
        rw [← isFront]
        simpa [shape, eq_comm] using first
      rw [isReq] at isStarted
      exact unanswered (pipelined.logged.started req isStarted)
    · intro _ notWriting
      simp at notWriting
  · apply kept [] (by simp)
    · intro isHead
      exact (restNotWriting (List.mem_of_mem_head? isHead)).elim
    · intro notSuspended _ other first isAttached isResponded
      have different : other ≠ req := by
        rintro rfl
        apply notFront
        simpa [shape] using first
      have wasResponded : c.Responded other :=
        ((responded other).mp isResponded).resolve_left different
      refine pipelined.waiting ?_ ?_ other first isAttached wasResponded
      · simp only [List.nil_append] at notSuspended
        simp [topWindows, notSuspended]
      · intro isHead
        rcases List.mem_append.mp (List.mem_of_mem_head? isHead) with
          inTop | inRest
        · exact topNotWriting inTop
        · exact restNotWriting inRest

/-! ## Writing -/

theorem noneHeld_of_free
    {stack : List Frame}
    (free : suspended stack = false) :
    held stack = [] := by
  rw [held, List.filterMap_eq_nil_iff]
  intro frame member
  have notWindow : isWindow frame = false := by
    rw [suspended, List.any_eq_false] at free
    simpa using free frame member
  cases frame <;> simp_all [isWindow, held?]

/-- The invariant where nothing is suspended. -/
theorem Pipelined.free
    {c : ServerConnection}
    {stack : List Frame}
    (logged : Logged c)
    (reached : ∀ piece ∈ c.written, ∀ req ∈ c.requests, piece.req ≤ req)
    (waiting :
      ∀ req ∈ c.requests.head?,
        c.Attached req → c.Responded req → c.Started req)
    (free : suspended stack = false)
    (notWriting : Frame.writeNextResponse ∉ stack) :
    Pipelined c stack where
  logged := logged
  emptied := emptied_of_not_suspended free
  reached := reached
  heldReached := by simp [noneHeld_of_free free]
  returned member := (noReturn_of_free free member).elim
  writing isHead := (notWriting (List.mem_of_mem_head? isHead)).elim
  waiting _ _ := waiting
  heldStarted := by simp [noneHeld_of_free free]

/-- The invariant where nothing is suspended and the first request is written to. -/
theorem Pipelined.wrote
    {c : ServerConnection}
    {req : Nat}
    {rest : List Nat}
    {stack : List Frame}
    (logged : Logged c)
    (sorted : c.requests.Pairwise (· < ·))
    (shape : c.requests = req :: rest)
    (reached : ∀ piece ∈ c.written, piece.req ≤ req)
    (started : c.Started req)
    (free : suspended stack = false)
    (notWriting : Frame.writeNextResponse ∉ stack) :
    Pipelined c stack := by
  refine Pipelined.free logged ?_ ?_ free notWriting
  · intro piece written other member
    have toFront := reached piece written
    rw [shape] at member sorted
    rcases List.mem_cons.mp member with same | behind
    · omega
    · have := (List.pairwise_cons.mp sorted).1 other behind
      omega
  · intro other first _ _
    have isReq : other = req := by
      simpa [shape, eq_comm] using first
    rwa [isReq]

/-- The head of the first response has been written. -/
structure HeadLogged (c : ServerConnection) (req : Nat) : Prop where
  logged : Logged c
  reached : ∀ piece ∈ c.written, piece.req ≤ req
  started : c.Started req

theorem HeadLogged.startClosing
    {c : ServerConnection}
    {req : Nat}
    (headLogged : HeadLogged c req) :
    HeadLogged (c.startClosing req) req := by
  have same : SamePieces c (c.startClosing req) := by
    simp only [ServerConnection.startClosing]
    split
    · refine SamePieces.of_store rfl rfl ?_ rfl
      simp [ServerConnection.written, readIgnore, piece?]
    · exact SamePieces.of_store rfl rfl rfl rfl
  exact
    { logged := same.logged headLogged.logged
      reached := by
        rw [same.written]
        exact headLogged.reached
      started := (same.started req).mpr headLogged.started }

theorem HeadLogged.writeChunks
    {c : ServerConnection}
    {req : Nat}
    (chunks : List Data)
    (headLogged : HeadLogged c req)
    (below : req < c.nextId)
    (unfinished : ¬ c.Completed req) :
    HeadLogged (c.writeChunks req chunks) req where
  logged :=
    headLogged.logged.writeChunks chunks headLogged.reached below
      headLogged.started unfinished
  reached piece member := by
    rw [written_writeChunks] at member
    rcases List.mem_append.mp member with old | new
    · exact headLogged.reached piece old
    · obtain ⟨data, _, rfl⟩ := List.mem_map.mp new
      exact Nat.le_refl req
  started := by
    obtain ⟨response, head⟩ := headLogged.started
    exact ⟨response, by
      rw [written_writeChunks]
      exact List.mem_append_left _ head⟩

/-- The head of a response that has not been started is written. -/
theorem Logged.writeHead
    {c : ServerConnection}
    {req : Nat}
    {response : ServerResponse}
    (logged : Logged c)
    (reached : ∀ piece ∈ c.written, piece.req ≤ req)
    (below : req < c.nextId)
    (notStarted : ¬ c.Started req) :
    HeadLogged (c.writeHead req response) req := by
  have sameWritten : (c.setResponse req response).written = c.written := rfl
  have prepared : Logged (c.setResponse req response) := by
    have different : ∀ other, c.Started other → other ≠ req :=
      fun other isStarted same => notStarted (same ▸ isStarted)
    apply logged.same sameWritten (Nat.le_refl _)
    · intro other isStarted
      simp [Responded, different other isStarted]
    · intro other isStarted
      simp [Completed, different other isStarted]
  have reachedHead :
      ∀ piece ∈ (c.setResponse req response).written,
        piece.req ≤ (Piece.head req response).req := reached
  refine
    { logged := ?_
      reached := ?_
      started := ⟨response, by simp [ServerConnection.writeHead]⟩ }
  · apply prepared.write reachedHead below notStarted
    · intro _ _
      simp [Responded, Piece.req]
    · simp
  · intro piece member
    unfold ServerConnection.writeHead at member
    rw [written_write, sameWritten] at member
    rcases List.mem_append.mp member with old | new
    · exact reached piece old
    · simp only [List.mem_singleton] at new
      simp [new, Piece.req]

theorem Pipelined.writeNextResponse
    {c next : ServerConnection}
    {rest frames : List Frame}
    (receiving : Receiving c (.writeNextResponse :: rest))
    (layered : Layered (.writeNextResponse :: rest))
    (pipelined : Pipelined c (.writeNextResponse :: rest))
    (executed : c.writeNextResponse = .next next frames) :
    Pipelined next (frames ++ rest) := by
  have restFree : suspended rest = false := layered.not_suspended rfl
  have restNotWriting : Frame.writeNextResponse ∉ rest := layered.writeOnTop
  obtain ⟨req, others, given, shape, stored, outcome⟩ :=
    writeNextResponse_next executed
  have below := receiving.requestsBelow req (by simp [shape])
  have sorted := receiving.sorted
  have reached : ∀ piece ∈ c.written, piece.req ≤ req :=
    fun piece member => pipelined.reached piece member req (by simp [shape])
  have notStarted : ¬ c.Started req :=
    pipelined.writing rfl req (by simp [shape])
  have wroteHead :
      HeadLogged (c.writeHead req (c.prepared given).withoutTmpChunks) req :=
    pipelined.logged.writeHead reached below notStarted
  have headed :
      ∀ middle,
        WritesHead c req others (c.prepared given).withoutTmpChunks middle →
        HeadLogged middle req ∧ Kept c middle ∧
          (middle.Completed req ↔ given.completed = true) := by
    intro middle writes
    have completed :
        ((c.writeHead req (c.prepared given).withoutTmpChunks).store
          req).responseCompleted = given.completed := by
      rw [completed_writeHead, completed_withoutTmpChunks]
      rfl
    cases writes with
    | keepAlive _ _ =>
        exact ⟨wroteHead, Kept.writeHead c req _, by simp [Completed, completed]⟩
    | closing _ =>
        refine ⟨wroteHead.startClosing,
          (Kept.writeHead c req _).trans (Kept.startClosing _ req), ?_⟩
        rw [Completed, store_startClosing, completed]
  have notWriting :
      ∀ frames,
        Frame.writeNextResponse ∉ frames →
        Frame.writeNextResponse ∉ frames ++ rest := by
    intro frames noWrite
    simpa using ⟨noWrite, restNotWriting⟩
  cases outcome with
  | finish writes _ =>
      obtain ⟨headLogged, kept, _⟩ := headed _ writes
      have deque := kept.requests.trans shape
      refine Pipelined.wrote headLogged.logged ?_ deque headLogged.reached
        headLogged.started (by simp [isWindow, restFree])
        (notWriting _ (by simp))
      rw [kept.requests]
      exact sorted
  | flush writes notCompleted =>
      obtain ⟨headLogged, kept, completedIff⟩ := headed _ writes
      have chunked :=
        headLogged.writeChunks (c.prepared given).tmpChunks
          (by rw [kept.nextId]; exact below)
          (by simp [completedIff, notCompleted])
      have keptChunks :=
        kept.trans (Kept.writeChunks _ req (c.prepared given).tmpChunks)
      refine Pipelined.wrote chunked.logged ?_
        (keptChunks.requests.trans shape) chunked.reached chunked.started
        (by simpa using restFree) (notWriting [] (by simp))
      rw [keptChunks.requests]
      exact sorted
  | hold nonempty =>
      have closed := wroteHead.startClosing
      have newHeld :
          held (.dropRequests (some (.http .pipelineCanceled))
              (.writeNextResponse req (c.prepared given).tmpChunks) :: rest) =
            [req] := by
        have noneHeld := noneHeld_of_free restFree
        simp only [held] at noneHeld
        simp [held, held?, noneHeld]
      have noReturn := noReturn_of_free restFree
      refine
        { logged := ?_
          emptied := ⟨by simp [delivers], emptied_of_not_suspended restFree⟩
          reached := ?_
          heldReached := ?_
          returned := fun member => (noReturn (by simpa using member)).elim
          writing := by simp
          waiting := by simp [isWindow]
          heldStarted := ?_ }
      · exact closed.logged.same rfl (Nat.le_refl _)
          (fun _ _ responded => responded) (fun _ _ completed => completed)
      · intro piece member other behind
        have toFront := closed.reached piece member
        rw [shape] at sorted
        have := (List.pairwise_cons.mp sorted).1 other behind
        omega
      · intro piece member other isHeld
        rw [List.cons_append, List.nil_append, newHeld] at isHeld
        have isReq : other = req := by simpa using isHeld
        rw [isReq]
        exact closed.reached piece member
      · intro other isHeld
        rw [List.cons_append, List.nil_append, newHeld] at isHeld
        have isReq : other = req := by simpa using isHeld
        rw [isReq]
        exact closed.started

/-! ## Leaving the deque -/

/-- A request is cleaned up: the pieces and the responses stay. -/
theorem Logged.cleanup
    {c : ServerConnection}
    (logged : Logged c)
    (req : Nat)
    (rest : List Nat) :
    Logged (c.cleanupRequest req rest) ∧
      (c.cleanupRequest req rest).written = c.written := by
  have written : (c.cleanupRequest req rest).written = c.written := by
    unfold cleanupRequest
    simp only [written_emit, piece?, Option.toList_none, List.append_nil]
    rfl
  refine ⟨logged.same written (Nat.le_refl _) ?_ ?_, written⟩ <;>
    intro other _ <;> by_cases same : other = req <;>
    simp [Responded, Completed, cleanupRequest, emit, setRequest, same,
      ServerRequest.responseCompleted]

theorem done_cleanupRequest
    (c : ServerConnection)
    (req : Nat)
    (rest : List Nat)
    (other : Nat) :
    (c.cleanupRequest req rest).Done other ↔ c.Done other := by
  by_cases same : other = req <;>
    simp [Done, cleanupRequest, emit, setRequest, same]

theorem Pipelined.finishRequest
    {c next : ServerConnection}
    {rest frames : List Frame}
    (receiving : Receiving c (.finishRequest :: rest))
    (layered : Layered (.finishRequest :: rest))
    (pipelined : Pipelined c (.finishRequest :: rest))
    (executed : c.finishRequest = .next next frames) :
    Pipelined next (frames ++ rest) := by
  have restFree : suspended rest = false := layered.not_suspended rfl
  have restNotWriting : Frame.writeNextResponse ∉ rest := layered.writeOnTop
  obtain ⟨req, others, shape, _, ⟨_, rfl, rfl⟩ | ⟨_, rfl, rfl⟩⟩ :=
    finishRequest_next executed
  · exact pipelined.replace [_]
      (SamePieces.setRequest c req _ rfl rfl rfl) (by simp [isInner])
      (by simp) (Or.inl rfl) (emptied_of_not_suspended (by simpa using restFree))
      (by simp) (by simp) (by simpa using restNotWriting)
  · obtain ⟨logged, written⟩ := pipelined.logged.cleanup req others
    have behind :
        ∀ piece ∈ c.written, ∀ other ∈ others, piece.req < other := by
      intro piece member other isBehind
      have toFront := pipelined.reached piece member req (by simp [shape])
      have sorted := receiving.sorted
      rw [shape] at sorted
      have := (List.pairwise_cons.mp sorted).1 other isBehind
      omega
    have noneHeld := noneHeld_of_free restFree
    have newHeld :
        held ([.fire (.finishEvent req), .finishReturn] ++ rest) = [] := by
      rw [held_inner (by simp [isInner]), noneHeld]
    refine
      { logged := logged
        emptied := (emptied_of_not_suspended restFree).push
          (by simp [delivers, responds])
        reached := ?_
        heldReached := by
          rw [newHeld]
          simp
        returned := ?_
        writing := by simp
        waiting := by simp [isWindow]
        heldStarted := by
          rw [newHeld]
          simp }
    · rw [written]
      exact fun piece member other isBehind =>
        Nat.le_of_lt (behind piece member other isBehind)
    · intro _
      rw [written]
      exact behind

theorem Pipelined.finishReturn
    {c next : ServerConnection}
    {rest frames : List Frame}
    (layered : Layered (.finishReturn :: rest))
    (pipelined : Pipelined c (.finishReturn :: rest))
    (executed : c.finishReturn = .next next frames) :
    Pipelined next (frames ++ rest) := by
  have restFree : suspended rest = false := layered.not_suspended rfl
  have restNotWriting : Frame.writeNextResponse ∉ rest := layered.writeOnTop
  have noReturn := noReturn_of_free restFree
  have noneHeld := noneHeld_of_free restFree
  have same : SamePieces c next := by
    rcases finishReturn_plain executed with plain | ⟨_, _, rfl, _⟩
    · exact SamePieces.of_plain plain.1
    · exact SamePieces.refl _
  have settle :
      (∀ frame ∈ frames, isInner frame = true) →
      (∀ frame ∈ frames, delivers next frame → next.requests = []) →
      Frame.finishReturn ∉ frames →
      (suspended (frames ++ rest) = false →
        (frames ++ rest).head? ≠ some .writeNextResponse →
        ∀ req ∈ c.requests.head?, ¬ c.Responded req) →
      Pipelined next (frames ++ rest) := by
    intro inner noDelivery notReturn unanswered
    refine
      { logged := same.logged pipelined.logged
        emptied := (emptied_of_not_suspended restFree).push noDelivery
        reached := ?_
        heldReached := by simp [held_inner inner, noneHeld]
        returned := ?_
        writing := ?_
        waiting := ?_
        heldStarted := by simp [held_inner inner, noneHeld] }
    · rw [same.written, same.requests]
      exact pipelined.reached
    · intro member
      rcases List.mem_append.mp member with inFrames | inRest
      · exact (notReturn inFrames).elim
      · exact (noReturn inRest).elim
    · -- what has been written belongs to the requests that are gone
      intro _ req first started
      rw [same.requests] at first
      rw [same.started] at started
      obtain ⟨response, member⟩ := started
      have := pipelined.returned (by simp) _ member req
        (List.mem_of_mem_head? first)
      simp [Piece.req] at this
    · intro notSuspended notWriting req first _ responded
      rw [same.requests] at first
      rw [same.responded] at responded
      exact (unanswered notSuspended notWriting req first responded).elim
  rcases finishReturn_next executed with
    ⟨_, closed⟩ | ⟨_, _, ⟨_, _, rfl, unanswered⟩ | ⟨_, rfl, _⟩⟩
  · obtain ⟨_, rfl⟩ := doClose_next closed
    exact settle (by simp [isInner]) (by simp [delivers]) (by simp)
      (by simp [isWindow])
  · exact settle (by simp) (by simp) (by simp) fun _ _ => unanswered
  · exact settle (by simp [isInner]) (by simp [delivers]) (by simp) (by simp)

theorem Pipelined.dropRequests
    {c next : ServerConnection}
    {error : Option ErrorCode}
    {returns : DropReturn}
    {rest frames : List Frame}
    (receiving : Receiving c (.dropRequests error returns :: rest))
    (layered : Layered (.dropRequests error returns :: rest))
    (pipelined : Pipelined c (.dropRequests error returns :: rest))
    (executed : c.dropRequests error returns = .next next frames) :
    Pipelined next (frames ++ rest) := by
  have restNotWriting : Frame.writeNextResponse ∉ rest := layered.writeOnTop
  unfold ServerConnection.dropRequests at executed
  split at executed
  · rename_i req others shape
    cases executed
    obtain ⟨logged, written⟩ := pipelined.logged.cleanup req others
    have sameWritten :
        ((c.cleanupRequest req others).emit (.dropped req error)).written =
          c.written := by
      simp [piece?, written]
    have started :
        ∀ other,
          ((c.cleanupRequest req others).emit
            (.dropped req error)).Started other ↔ c.Started other := by
      simp [Started, sameWritten]
    have stillIn : ∀ other ∈ others, other ∈ c.requests := by
      intro other member
      rw [shape]
      exact List.mem_cons_of_mem _ member
    have below :
        Emptied ((c.cleanupRequest req others).emit (.dropped req error))
          (.dropRequests error returns :: rest) := by
      refine pipelined.emptied.same ?_ (done_cleanupRequest c req others)
      intro empty
      simp [shape] at empty
    refine
      { logged := ?_
        emptied := ?_
        reached := ?_
        heldReached := ?_
        returned := ?_
        writing := by simp
        waiting := by simp [isWindow]
        heldStarted := ?_ }
    · exact logged.same (sameWritten.trans written.symm) (Nat.le_refl _)
        (fun _ _ responded => responded) (fun _ _ completed => completed)
    · -- a request that is not finished was the last one
      change
        Emptied _
          ([.fire (.finishEvent req), .dropNotify req error] ++
            .dropRequests error returns :: rest)
      apply below.push
      intro frame member isDelivery
      simp only [List.mem_cons, List.not_mem_nil, or_false] at member
      rcases member with rfl | rfl
      · simp [delivers, responds] at isDelivery
      · by_contra nonempty
        apply isDelivery
        exact (done_cleanupRequest c req others req).mpr
          (receiving.followed shape nonempty)
    · rw [sameWritten]
      exact fun piece member other isBehind =>
        pipelined.reached piece member other (stillIn other isBehind)
    · rw [sameWritten]
      exact pipelined.heldReached
    · intro member
      rw [sameWritten]
      have wasMember :
          Frame.finishReturn ∈ Frame.dropRequests error returns :: rest := by
        simpa using member
      exact fun piece isWritten other isBehind =>
        pipelined.returned wasMember piece isWritten other
          (stillIn other isBehind)
    · intro other member
      rw [started]
      exact pipelined.heldStarted other member
  · rename_i empty
    split at executed
    · cases executed
      exact pipelined.replace [_] (SamePieces.refl c) (by simp [isInner])
        (by simp) (Or.inr empty) (pipelined.emptied.2) (by simp) (by simp)
        (by simpa using restNotWriting)
    · cases executed
      have same : SamePieces c (c.emit .removed) :=
        SamePieces.of_plain (Plain.emit c rfl)
      refine pipelined.replace [_] same (by simp [isInner]) (by simp)
        (Or.inr empty) ?_ (by simp [isInner]) (by simp)
        (by simpa using restNotWriting)
      exact Emptied.push
        (pipelined.emptied.2.same same.requests.trans same.done)
        (by simp [delivers, responds])
    · -- the held request is written to again when it has been put back
      rename_i req tmpChunks
      have restFree : suspended rest = false := layered.not_suspended rfl
      have isHeld :
          req ∈ held
            (.dropRequests error (.writeNextResponse req tmpChunks) :: rest) := by
        simp [held, held?]
      obtain ⟨below, _, _, _⟩ := receiving.heldApart req isHeld
      have restored : HeadLogged { c with requests := [req] } req :=
        { logged := pipelined.logged.same rfl (Nat.le_refl _)
            (fun _ _ responded => responded) (fun _ _ completed => completed)
          reached := fun piece member =>
            pipelined.heldReached piece member req isHeld
          started := pipelined.heldStarted req isHeld }
      unfold flushResponse at executed
      split at executed
      · cases executed
        exact Pipelined.wrote restored.logged (by simp) rfl restored.reached
          restored.started (by simp [isWindow, restFree])
          (by simpa using restNotWriting)
      · rename_i notCompleted
        cases executed
        have chunked :=
          restored.writeChunks tmpChunks below
            (by simpa [Completed] using notCompleted)
        have requests := requests_writeChunks { c with requests := [req] } req tmpChunks
        exact Pipelined.wrote chunked.logged (by simp [requests]) requests
          chunked.reached chunked.started (by simpa using restFree)
          (by simpa using restNotWriting)

/-! ## Reading -/

theorem Pipelined.parse
    {c next : ServerConnection}
    {result : Parsed}
    {rest : List Parsed}
    {req : Nat}
    {stack : List Frame}
    (receiving : Receiving c [.onRead (result :: rest)])
    (pipelined : Pipelined c [.onRead (result :: rest)])
    (parses : Parses c result next req)
    (free : suspended stack = false)
    (notWriting : Frame.writeNextResponse ∉ stack) :
    Pipelined next stack := by
  have logged : Logged next := by
    apply pipelined.logged.same parses.written parses.nextId <;>
      rintro other ⟨response, member⟩ <;>
      have old := (parses.stored (pipelined.logged.below _ member)).2
    · simpa [Responded, Piece.req] using fun responded => old ▸ responded
    · intro completed
      simp only [Piece.req] at old
      simpa [Completed, ServerRequest.responseCompleted, old] using completed
  have deque :
      next.requests = c.requests ∧ c.requests ≠ [] ∨
        next.requests = c.requests ++ [req] := by
    by_cases last : c.requests.getLast? = some req
    · exact Or.inl ⟨by simp [parses.requests, last], by
        intro empty
        simp [empty] at last⟩
    · exact Or.inr (by simp [parses.requests, last])
  have beforeReq : ∀ piece ∈ c.written, piece.req ≤ req := by
    intro piece member
    have := pipelined.logged.below piece member
    obtain ⟨_, _, ⟨parsing, _⟩ | ⟨_, _, isNext, _⟩⟩ := parses.origin
    · have := (receiving.reading parsing).1
      omega
    · omega
  refine Pipelined.free logged ?_ ?_ free notWriting
  · rw [parses.written]
    intro piece member other inDeque
    rcases deque with ⟨shape, _⟩ | shape
    · rw [shape] at inDeque
      exact pipelined.reached piece member other inDeque
    · rw [shape] at inDeque
      rcases List.mem_append.mp inDeque with old | new
      · exact pipelined.reached piece member other old
      · simp only [List.mem_singleton] at new
        rw [new]
        exact beforeReq piece member
  · intro first isFirst attached responded
    by_cases empty : c.requests = []
    · -- a request that comes back to an empty deque is not attached
      have isReq : first = req := by
        rcases deque with ⟨_, nonempty⟩ | shape
        · exact (nonempty empty).elim
        · simpa [shape, empty, eq_comm] using isFirst
      subst first
      obtain ⟨base, stored, ⟨parsing, same, _⟩ | ⟨_, fresh, _⟩⟩ :=
        parses.origin
      · have wasAttached : c.Attached req := by
          simpa [Attached, stored, same] using attached
        have located := receiving.located req wasAttached
        simp [empty, held, held?] at located
      · simp [Responded, stored, fresh] at responded
    · have wasFirst : first ∈ c.requests.head? := by
        obtain ⟨front, others, shape⟩ := List.exists_cons_of_ne_nil empty
        rcases deque with ⟨same, _⟩ | same <;>
          simpa [same, shape] using isFirst
      have old :=
        parses.stored
          (receiving.requestsBelow first (List.mem_of_mem_head? wasFirst))
      have wasAttached : c.Attached first := by
        simpa [Attached, old.1] using attached
      have wasResponded : c.Responded first := by
        simpa [Responded, old.2] using responded
      rw [Started, parses.written]
      exact pipelined.waiting rfl (by simp) first wasFirst wasAttached
        wasResponded

theorem Pipelined.onReadLoop
    {c next : ServerConnection}
    {buf : List Parsed}
    {frames : List Frame}
    (receiving : Receiving c [.onRead buf])
    (pipelined : Pipelined c [.onRead buf])
    (executed : c.onReadLoop buf = .next next frames) :
    Pipelined next frames := by
  cases buf with
  | nil =>
      cases executed
      exact Pipelined.free pipelined.logged pipelined.reached
        (pipelined.waiting rfl (by simp)) rfl (by simp)
  | cons result rest =>
      obtain ⟨parsed, req, parses, reads⟩ := onReadLoop_next executed
      have parse :
          ∀ stack,
            suspended stack = false →
            Frame.writeNextResponse ∉ stack →
            Pipelined parsed stack :=
        fun _ => Pipelined.parse receiving pipelined parses
      cases reads with
      | route _ _ =>
          have routed :=
            parse
              [.fire (.routeEvent req),
                .routed req result.isDone
                  (if result.isDone then rest else [])]
              rfl (by simp)
          have same :=
            SamePieces.setRequest parsed req
              { parsed.store req with routed := true } rfl rfl rfl
          refine Pipelined.free (same.logged routed.logged) ?_ ?_ rfl (by simp)
          · exact routed.reached
          · intro first isFirst attached responded
            exact (same.started first).mpr
              (routed.waiting rfl (by simp) first isFirst
                ((same.attached first).mp attached)
                ((same.responded first).mp responded))
      | _ =>
          exact parse _ rfl (by simp)

theorem Pipelined.readFails
    {c next : ServerConnection}
    {req : Nat}
    {error : ErrorCode}
    (receiving : Receiving c [])
    (pipelined : Pipelined c [])
    (fails : ReadFails c next req) :
    Pipelined next [.requestError req error] := by
  have logged : Logged next := by
    apply pipelined.logged.same fails.written fails.nextId <;>
      rintro other ⟨response, member⟩ <;>
      have old := (fails.stored (pipelined.logged.below _ member)).2
    · simpa [Responded, Piece.req] using fun responded => old ▸ responded
    · intro completed
      simp only [Piece.req] at old
      simpa [Completed, ServerRequest.responseCompleted, old] using completed
  have wasWaiting :
      ∀ first ∈ c.requests.head?,
        next.Attached first → next.Responded first → next.Started first := by
    intro first isFirst attached responded
    have old :=
      fails.stored
        (receiving.requestsBelow first (List.mem_of_mem_head? isFirst))
    rw [Started, fails.written]
    exact pipelined.waiting rfl (by simp) first isFirst
      (by simpa [Attached, old.1] using attached)
      (by simpa [Responded, old.2] using responded)
  refine Pipelined.free logged ?_ ?_ rfl (by simp)
  · rw [fails.written]
    rcases fails.origin with ⟨_, _, requests, _⟩ | ⟨_, isNext, requests, _⟩
    · rw [requests]
      exact pipelined.reached
    · rw [requests]
      intro piece member other inDeque
      rcases List.mem_append.mp inDeque with old | new
      · exact pipelined.reached piece member other old
      · have := pipelined.logged.below piece member
        simp only [List.mem_singleton] at new
        omega
  · rcases fails.origin with
      ⟨_, _, requests, _⟩ | ⟨_, _, requests, _, _, stored⟩
    · rw [requests]
      exact wasWaiting
    · intro first isFirst attached responded
      rw [requests] at isFirst
      by_cases empty : c.requests = []
      · have isReq : first = req := by
          simpa [empty, eq_comm] using isFirst
        rw [isReq] at responded
        simp [Responded, stored] at responded
      · have wasFirst : first ∈ c.requests.head? := by
          obtain ⟨front, others, shape⟩ := List.exists_cons_of_ne_nil empty
          simpa [shape] using isFirst
        exact wasWaiting first wasFirst attached responded

/-! ## Every step -/

/-- A request in the deque means that the application may respond. -/
theorem Emptied.free
    {c : ServerConnection}
    {stack : List Frame}
    {label : Label}
    (emptied : Emptied c stack)
    (permitted : RespondsOnDelivery ⟨c, stack, none⟩ label)
    (call : isResponseCall label = true)
    (nonempty : c.requests ≠ []) :
    suspended stack = false := by
  cases isSuspended : suspended stack with
  | false =>
      rfl
  | true =>
      exact (nonempty
        (emptied.responseCall permitted call isSuspended)).elim

theorem emptied_code
    {c next : ServerConnection}
    {frame : Frame}
    {rest frames : List Frame}
    (emptied : Emptied c (frame :: rest))
    (runs : runsPlain frame = true)
    (executed : code frame c = .next next frames) :
    Emptied next (frames ++ rest) := by
  have plain := plain_code c runs
  rw [executed] at plain
  have same := SamePieces.of_plain plain.1
  have below : Emptied next rest :=
    emptied.2.same same.requests.trans same.done
  have under :
      ∀ other,
        (delivers next other → delivers c frame) →
        Emptied next (other :: rest) := by
    intro other wasDelivery
    refine ⟨?_, below⟩
    intro isDelivery isSuspended
    exact same.requests.trans
      (emptied.1 (wasDelivery isDelivery) isSuspended)
  cases frame with
  | callback fired =>
      cases executed
      exact below
  | fire fired =>
      cases executed
      exact under (.callback fired) id
  | readIgnore =>
      cases executed
      exact below
  | dropNotify req error =>
      simp only [code, dropNotify] at executed
      split at executed
      · rename_i notDone
        have isDelivery : delivers c (.dropNotify req error) := by
          simpa [delivers, Done] using notDone
        split at executed <;> cases executed <;>
          exact under _ fun _ => isDelivery
      · split at executed <;> cases executed
        · exact below
        · exact under _ (by simp [delivers, responds])
  | upgradeReturn =>
      cases executed
      exact under _ (by simp [delivers, responds])
  | _ =>
      simp [runsPlain] at runs

theorem Pipelined.tick
    {frame : Frame}
    {rest frames : List Frame}
    {c next : ServerConnection}
    (pipelined : Pipelined c (frame :: rest))
    (receiving : Receiving c (frame :: rest))
    (layered : Layered (frame :: rest))
    (executed : code frame c = .next next frames) :
    Pipelined next (frames ++ rest) := by
  have restNotWriting : Frame.writeNextResponse ∉ rest := layered.writeOnTop
  have runs :
      runsPlain frame = true →
      isInner frame = true →
      isWindow frame = false →
      frame ≠ .writeNextResponse →
      Pipelined next (frames ++ rest) := by
    intro runsPlain inner noWindow notWrite
    have plain := plain_code c runsPlain
    rw [executed] at plain
    have onlyPlain :
        ∀ other ∈ frames,
          isInner other = true ∧ other ≠ .finishReturn ∧
            other ≠ .writeNextResponse := by
      intro other member
      have isPlain := plain.2 other member
      unfold isPlainFrame at isPlain
      split at isPlain <;> simp_all [isInner]
    refine pipelined.replace [frame] (SamePieces.of_plain plain.1)
      (by simpa using inner) (by simpa using Ne.symm notWrite)
      (Or.inl (by simp [noWindow]))
      (emptied_code pipelined.emptied runsPlain executed)
      (fun other member => (onlyPlain other member).1) ?_ ?_
    · exact fun member => (onlyPlain _ member).2.1 rfl
    · intro member
      rcases List.mem_append.mp member with inFrames | inRest
      · exact (onlyPlain _ inFrames).2.2 rfl
      · exact restNotWriting inRest
  have reads :
      ((∃ req done buf, frame = .routed req done buf) ∨
        ∃ req done buf, frame = .received req done buf) →
      suspended frames = false →
      Pipelined next (frames ++ rest) := by
    intro between free
    obtain ⟨plain, notWriting, _⟩ := reader_next between executed
    have alone : rest = [] := by
      rcases between with ⟨_, _, _, rfl⟩ | ⟨_, _, _, rfl⟩ <;>
        exact receiving.alone rfl
    subst rest
    have same := SamePieces.of_plain plain
    have wasWaiting :
        ∀ req ∈ c.requests.head?,
          c.Attached req → c.Responded req → c.Started req := by
      apply pipelined.waiting <;>
        rcases between with ⟨_, _, _, rfl⟩ | ⟨_, _, _, rfl⟩ <;>
        simp [isWindow]
    rw [List.append_nil]
    refine Pipelined.free (same.logged pipelined.logged) ?_ ?_ free notWriting
    · rw [same.written, same.requests]
      exact pipelined.reached
    · intro req first attached responded
      rw [same.requests] at first
      exact (same.started req).mpr
        (wasWaiting req first ((same.attached req).mp attached)
          ((same.responded req).mp responded))
  cases frame with
  | onRead buf =>
      have alone := receiving.alone rfl
      subst rest
      simpa using Pipelined.onReadLoop receiving pipelined executed
  | routed req done buf =>
      apply reads (Or.inl ⟨req, done, buf, rfl⟩)
      simp only [code, routed] at executed
      split at executed
      · cases executed
        rfl
      · split at executed <;> cases executed <;> rfl
  | received req done buf =>
      apply reads (Or.inr ⟨req, done, buf, rfl⟩)
      simp only [code, received] at executed
      split at executed
      · cases executed
        rfl
      · split at executed
        · cases executed
          rfl
        · split at executed <;> cases executed <;> rfl
  | requestError req error =>
      cases executed
      have restFree : suspended rest = false := layered.not_suspended rfl
      exact pipelined.replace [_] (SamePieces.of_plain (Plain.readIgnore c))
        (by simp [isInner]) (by simp) (Or.inl rfl)
        (emptied_of_not_suspended (by simpa [isWindow] using restFree))
        (by simp [isInner]) (by simp) (by simpa using restNotWriting)
  | requestErrorReturn req =>
      simp only [code, requestErrorReturn] at executed
      split at executed
      · exact Pipelined.respond [_] pipelined (by simp [isInner]) (by simp)
          rfl restNotWriting executed
      · rename_i response stored
        have restFree : suspended rest = false := layered.not_suspended rfl
        have same :
            SamePieces c next ∧ frames = [] := by
          split at executed <;> cases executed
          · exact ⟨SamePieces.setResponse c req stored rfl, rfl⟩
          · exact ⟨SamePieces.refl c, rfl⟩
        obtain ⟨same, rfl⟩ := same
        exact pipelined.replace [_] same (by simp [isInner]) (by simp)
          (Or.inl rfl) (emptied_of_not_suspended (by simpa using restFree))
          (by simp) (by simp) (by simpa using restNotWriting)
  | writeNextResponse =>
      exact Pipelined.writeNextResponse receiving layered pipelined executed
  | finishRequest =>
      exact Pipelined.finishRequest receiving layered pipelined executed
  | finishReturn =>
      exact Pipelined.finishReturn layered pipelined executed
  | dropRequests error returns =>
      exact Pipelined.dropRequests receiving layered pipelined executed
  | _ =>
      exact runs rfl rfl rfl (by simp)

/-- Where nothing is suspended, an update of one request keeps the invariant. -/
theorem Pipelined.calls
    {c next : ServerConnection}
    {stack : List Frame}
    (pipelined : Pipelined c stack)
    (same : SamePieces c next)
    (notWriting : Frame.writeNextResponse ∉ stack) :
    Pipelined next stack := by
  have emptied : Emptied next ([] ++ stack) :=
    pipelined.emptied.same same.requests.trans same.done
  exact pipelined.replace [] same (by simp) (by simp) (Or.inl rfl) emptied
    (by simp) (by simp) notWriting

theorem Pipelined.sendContinue
    {c next : ServerConnection}
    {req : Nat}
    {stack frames : List Frame}
    (receiving : Receiving c stack)
    (pipelined : Pipelined c stack)
    (free : c.requests ≠ [] → suspended stack = false)
    (notWriting : Frame.writeNextResponse ∉ stack)
    (executed : c.sendContinue req = .next next frames) :
    Pipelined next (frames ++ stack) := by
  unfold ServerConnection.sendContinue at executed
  split at executed
  · cases executed
  · rename_i front rest shape
    dsimp only at executed
    split at executed
    · cases executed
      exact pipelined
    · rename_i isFront
      split at executed
      · cases executed
        exact pipelined
      · split at executed
        · cases executed
        · rename_i unanswered
          cases executed
          have isReq : front = req := by simpa using isFront
          subst front
          have notResponded : ¬ c.Responded req := by
            simpa [Responded] using unanswered
          have notStarted : ¬ c.Started req :=
            fun started => notResponded (pipelined.logged.started req started)
          have reached :
              ∀ piece ∈ c.written,
                piece.req ≤ (Piece.continue100 req).req :=
            fun piece member =>
              pipelined.reached piece member req (by simp [shape])
          have logged : Logged (c.write (.continue100 req)) :=
            pipelined.logged.write reached
              (receiving.requestsBelow req (by simp [shape])) notStarted
              (by simp) (by simp)
          refine Pipelined.free logged ?_ ?_ (free (by simp [shape])) notWriting
          · rw [written_write]
            intro piece member other inDeque
            rcases List.mem_append.mp member with old | new
            · exact pipelined.reached piece old other inDeque
            · simp only [List.mem_singleton] at new
              have sorted := receiving.sorted
              rw [shape] at sorted
              have deque : c.requests = req :: rest := shape
              change other ∈ c.requests at inDeque
              rw [deque] at inDeque
              rw [new]
              rcases List.mem_cons.mp inDeque with same | behind
              · simp [Piece.req, same]
              · exact Nat.le_of_lt
                  ((List.pairwise_cons.mp sorted).1 other behind)
          · intro first isFirst _ responded
            have deque : c.requests = req :: rest := shape
            have isReq : first = req := by
              change first ∈ c.requests.head? at isFirst
              simpa [deque, eq_comm] using isFirst
            rw [isReq] at responded
            exact (notResponded responded).elim

theorem Pipelined.sendChunk
    {c next : ServerConnection}
    {req : Nat}
    {response : ServerResponse}
    {data : Data}
    {stack frames : List Frame}
    (receiving : Receiving c stack)
    (pipelined : Pipelined c stack)
    (stored : (c.store req).response = some response)
    (accepts : c.Accepts req)
    (free : c.requests ≠ [] → suspended stack = false)
    (notWriting : Frame.writeNextResponse ∉ stack)
    (executed : c.sendChunk req response data = .next next frames) :
    Pipelined next (frames ++ stack) := by
  have gave : SamePieces c (c.emit (.gaveChunk req data)) :=
    SamePieces.emit c rfl
  simp only [ServerConnection.sendChunk] at executed
  split at executed
  · cases executed
  · rename_i front rest shape
    have deque : c.requests = front :: rest := shape
    have stackFree := free (by simp [deque])
    split at executed
    · cases executed
      exact pipelined.calls gave notWriting
    · split at executed
      · rename_i isFront
        cases executed
        subst front
        have first : req ∈ c.requests.head? := by simp [deque]
        have started : c.Started req :=
          pipelined.waiting stackFree
            (fun isHead => notWriting (List.mem_of_mem_head? isHead))
            req first accepts.1 accepts.2.1
        have started : (c.emit (.gaveChunk req data)).Started req :=
          (gave.started req).mpr started
        have reached :
            ∀ piece ∈ (c.emit (.gaveChunk req data)).written,
              piece.req ≤ req := by
          rw [gave.written]
          exact fun piece member =>
            pipelined.reached piece member req (List.mem_of_mem_head? first)
        have chunked :
            HeadLogged
              ((c.emit (.gaveChunk req data)).writeChunks req [data]) req :=
          (HeadLogged.mk (gave.logged pipelined.logged) reached
            started).writeChunks [data]
              (receiving.requestsBelow req (List.mem_of_mem_head? first))
              accepts.2.2
        exact Pipelined.wrote chunked.logged receiving.sorted deque
          chunked.reached chunked.started stackFree notWriting
      · cases executed
        exact pipelined.calls
          (gave.trans (SamePieces.setResponse _ req stored rfl)) notWriting

theorem Pipelined.sendFinalChunk
    {c next : ServerConnection}
    {req : Nat}
    {response : ServerResponse}
    {data : Data}
    {stack frames : List Frame}
    (receiving : Receiving c stack)
    (pipelined : Pipelined c stack)
    (accepts : c.Accepts req)
    (free : c.requests ≠ [] → suspended stack = false)
    (notWriting : Frame.writeNextResponse ∉ stack)
    (executed : c.sendFinalChunk req response data = .next next frames) :
    Pipelined next (frames ++ stack) := by
  simp only [ServerConnection.sendFinalChunk] at executed
  split at executed
  · cases executed
  · rename_i front rest shape
    have deque : c.requests = front :: rest := shape
    have stackFree := free (by simp [deque])
    have notHead : stack.head? ≠ some .writeNextResponse :=
      fun isHead => notWriting (List.mem_of_mem_head? isHead)
    have completed :
        ∀ middle : ServerConnection,
          middle =
              (c.emit (.gaveFinalChunk req data)).setResponse req
                { response with completed := true } →
          Logged middle ∧ middle.written = c.written ∧
            middle.Completed req ∧
            (∀ other, middle.Attached other ↔ c.Attached other) ∧
            ∀ other, middle.Responded other → c.Responded other := by
      rintro _ rfl
      have written :
          ((c.emit (.gaveFinalChunk req data)).setResponse req
            { response with completed := true }).written = c.written := by
        simp [ServerConnection.written, emit, setResponse, setRequest, piece?]
      refine ⟨pipelined.logged.same written (Nat.le_refl _) ?_ ?_, written,
        ?_, ?_, ?_⟩
      · intro other _ responded
        by_cases same : other = req
        · simp [Responded, same]
        · simpa [Responded, same, emit] using responded
      · intro other _ isCompleted
        by_cases same : other = req
        · simp [Completed, same, ServerRequest.responseCompleted]
        · simpa [Completed, same, emit] using isCompleted
      · simp [Completed, ServerRequest.responseCompleted]
      · intro other
        by_cases same : other = req <;> simp [Attached, same, emit]
      · intro other responded
        by_cases same : other = req
        · exact same ▸ accepts.2.1
        · simpa [Responded, same, emit] using responded
    obtain ⟨logged, written, isCompleted, attached, wasResponded⟩ :=
      completed _ rfl
    split at executed
    · rename_i isFront
      cases executed
      subst front
      have first : req ∈ c.requests.head? := by simp [deque]
      obtain ⟨head, started⟩ :=
        pipelined.waiting stackFree notHead req first accepts.1 accepts.2.1
      have notFinal : ¬ FinalIn req c.written :=
        fun final => accepts.2.2 (pipelined.logged.finals req final)
      have reached :
          ∀ piece ∈ c.written, piece.req ≤ (Piece.finalChunk req data).req :=
        fun piece member =>
          pipelined.reached piece member req (List.mem_of_mem_head? first)
      have admissible : Admissible c.written (.finalChunk req data) :=
        ⟨⟨head, started⟩, notFinal⟩
      rw [← written] at reached admissible
      have wrote :=
        logged.write reached
          (receiving.requestsBelow req (List.mem_of_mem_head? first))
          admissible (by simp) (fun _ _ => isCompleted)
      rw [written] at reached
      refine Pipelined.wrote wrote receiving.sorted deque ?_
        ⟨head, ?_⟩ (by simpa [isWindow] using stackFree)
        (by simpa using notWriting)
      · rw [written_write, written]
        intro piece member
        rcases List.mem_append.mp member with old | new
        · exact reached piece old
        · simp only [List.mem_singleton] at new
          simp [new, Piece.req]
      · rw [written_write, written]
        exact List.mem_append_left _ started
    · cases executed
      refine Pipelined.free logged ?_ ?_ (by simpa using stackFree)
        (by simpa using notWriting)
      · rw [written]
        exact pipelined.reached
      · intro first isFirst isAttached responded
        rw [Started, written]
        exact pipelined.waiting stackFree notHead first isFirst
          ((attached first).mp isAttached) (wasResponded first responded)

theorem Pipelined.input
    {input : Input}
    {stack frames : List Frame}
    {c next : ServerConnection}
    (pipelined : Pipelined c stack)
    (receiving : Receiving c stack)
    (layered : Layered stack)
    (boundary : machine.atBoundary stack = true)
    (permitted : RespondsOnDelivery ⟨c, stack, none⟩ (.input input))
    (accepted : accept input stack.head? c = some (.next next frames)) :
    Pipelined next (frames ++ stack) := by
  have notWriting := notWriting_of_boundary boundary layered.writeOnTop
  have closes :
      PlainStep c (.next next frames) →
      (∀ frame ∈ frames,
        frame = .callback .stopEvent ∨
          ∃ error soft, frame = .dropRequests error (.doClose soft)) →
      Pipelined next (frames ++ stack) := by
    intro plain closing
    have same := SamePieces.of_plain plain.1
    have onlyClosing :
        ∀ frame ∈ frames,
          isInner frame = true ∧ ¬ delivers next frame ∧
            frame ≠ .finishReturn ∧ frame ≠ .writeNextResponse := by
      intro frame member
      rcases closing frame member with rfl | ⟨_, _, rfl⟩ <;>
        simp [isInner, delivers, responds]
    refine pipelined.replace [] same (by simp) (by simp) (Or.inl rfl) ?_
      (fun frame member => (onlyClosing frame member).1) ?_ ?_
    · exact Emptied.push
        (pipelined.emptied.same same.requests.trans same.done)
        fun frame member isDelivery =>
          ((onlyClosing frame member).2.1 isDelivery).elim
    · exact fun member => (onlyClosing _ member).2.2.1 rfl
    · intro member
      rcases List.mem_append.mp member with inFrames | inRest
      · exact (onlyClosing _ inFrames).2.2.2 rfl
      · exact notWriting inRest
  cases input with
  | respond req response =>
      simp only [accept] at accepted
      split at accepted
      · cases accepted
      · simp only [Option.some.injEq, requestRespond] at accepted
        split at accepted
        · exact Pipelined.respond [] pipelined (by simp) (by simp) rfl
            notWriting accepted
        · cases accepted
          exact pipelined
  | sendContinue req =>
      simp only [accept, Option.some.injEq, requestSendContinue] at accepted
      split at accepted
      · exact Pipelined.sendContinue receiving pipelined
          (pipelined.emptied.free permitted rfl) notWriting accepted
      · cases accepted
        exact pipelined
  | sendChunk req data =>
      simp only [accept, Option.some.injEq] at accepted
      rcases responseSend_next accepted with
        ⟨rfl, rfl⟩ | ⟨response, stored, accepts, sent⟩
      · exact pipelined
      · exact Pipelined.sendChunk receiving pipelined stored accepts
          (pipelined.emptied.free permitted rfl) notWriting sent
  | sendFinalChunk req data =>
      simp only [accept, Option.some.injEq] at accepted
      rcases responseSend_next accepted with
        ⟨rfl, rfl⟩ | ⟨response, stored, accepts, sent⟩
      · exact pipelined
      · exact Pipelined.sendFinalChunk receiving pipelined accepts
          (pipelined.emptied.free permitted rfl) notWriting sent
  | upgrade req =>
      simp only [accept, Option.some.injEq, requestUpgrade] at accepted
      split at accepted
      · cases accepted
        exact pipelined
      · split at accepted
        · cases accepted
          exact pipelined
        · unfold ServerConnection.upgrade at accepted
          split at accepted
          · cases accepted
            have handedOver :
                SamePieces c
                  ({ c with
                    stream := { c.stream with listener := false }
                    idleTimer := none }.emit (.upgraded req)) :=
              SamePieces.of_store rfl rfl
                (by simp [written, emit, piece?]) rfl
            obtain ⟨logged, written⟩ :=
              (handedOver.logged pipelined.logged).cleanup req []
            have sameWritten := written.trans handedOver.written
            refine
              { logged := logged
                emptied := ?_
                reached := by simp [cleanupRequest, emit, setRequest]
                heldReached := ?_
                returned := by simp [cleanupRequest, emit, setRequest]
                writing := by simp
                waiting := by simp [cleanupRequest, emit, setRequest]
                heldStarted := ?_ }
            · refine Emptied.push (pipelined.emptied.same (fun _ => rfl) ?_)
                (by simp [delivers, responds])
              intro other
              rw [done_cleanupRequest]
              exact handedOver.done other
            · rw [sameWritten]
              exact pipelined.heldReached
            · intro other member
              rw [Started, sameWritten]
              exact pipelined.heldStarted other member
          · cases accepted
  | enablePartial req =>
      cases accepted
      exact pipelined.calls (SamePieces.setRequest c req _ rfl rfl rfl)
        notWriting
  | gracefulStop =>
      simp only [accept, Option.some.injEq, gracefulStop] at accepted
      split at accepted
      · have plain := plain_doClose c (some (.http .serverStopping)) true
        rw [accepted] at plain
        refine closes plain ?_
        obtain ⟨_, rfl⟩ := doClose_next accepted
        simp
      · cases accepted
        exact pipelined.calls (SamePieces.of_store rfl rfl rfl rfl) notWriting
  | onRead buf =>
      cases stack with
      | nil =>
          simp only [List.head?_nil, accept] at accepted
          split at accepted <;> cases accepted
          exact Pipelined.free pipelined.logged pipelined.reached
            (pipelined.waiting rfl (by simp)) rfl (by simp)
      | cons frame rest =>
          simp [accept] at accepted
  | onReadError error =>
      cases stack with
      | nil =>
          simp only [List.head?_nil, accept] at accepted
          split at accepted
          · simp only [Option.some.injEq] at accepted
            obtain ⟨req, rfl, fails⟩ := onReadError_next accepted
            have between := boundary_between receiving boundary
            have ended :
                Kept c
                  { c with stream := { c.stream with ended := true } } :=
              ⟨rfl, rfl, rfl, fun _ => Iff.rfl, fun _ => Iff.rfl,
                fun _ => by simp [Silent, canRead]⟩
            exact Pipelined.readFails (receiving.same ended between)
              (pipelined.calls (SamePieces.of_store rfl rfl rfl rfl)
                notWriting) fails
          · cases accepted
      | cons frame rest =>
          simp [accept] at accepted
  | _ =>
      exact closes (plain_accept rfl accepted) (accept_closing rfl accepted)

/-- Every permitted step preserves the invariant of the pipeline. -/
theorem pipelined_preserved :
    machine.Preserves RespondsOnDelivery
      (fun c stack =>
        Receiving c stack ∧ Layered stack ∧ Pipelined c stack) := by
  apply preserves_of
  · rintro frame rest c next frames _ _ ⟨receiving, layered, pipelined⟩ executed
    exact ⟨receiving.tick executed, layered.tick executed,
      pipelined.tick receiving layered executed⟩
  · rintro fired rest c ⟨receiving, layered, pipelined⟩
    have popped : Pipelined c ([] ++ rest) :=
      pipelined.replace [.callback fired] (SamePieces.refl c)
        (by simp [isInner]) (by simp) (Or.inl rfl) pipelined.emptied.2
        (by simp) (by simp) layered.writeOnTop
    exact ⟨receiving.ret, layered.ret, popped⟩
  · rintro input stack c next frames boundary permitted
      ⟨receiving, layered, pipelined⟩ accepted
    exact ⟨receiving.input boundary accepted,
      layered.input boundary
        (noNestedResponse_of_emptied pipelined.emptied permitted) accepted,
      pipelined.input receiving layered boundary permitted accepted⟩
  · rintro stack c exception boundary ⟨receiving, layered, pipelined⟩
    have notWriting := notWriting_of_boundary boundary layered.writeOnTop
    exact ⟨receiving.threw boundary, layered,
      pipelined.calls (SamePieces.emit c rfl) notWriting⟩

theorem pipelined_initial (config : ConnectionConfig) :
    Pipelined (initial config) [] := by
  refine Pipelined.free ?_ ?_ ?_ rfl (by simp)
  · refine ⟨?_, ?_, ?_, ?_, ?_⟩ <;>
      simp [initial, written, Started, FinalIn, each_nil]
  · simp [initial]
  · simp [initial]

/-- The invariant of the pipeline holds in every run with the condition. -/
theorem run?_pipelined
    {config : ConnectionConfig}
    {labels : List Label}
    {final : Config}
    (ran : run? config labels = some final)
    (onDelivery : machine.Guarded RespondsOnDelivery (start config) labels) :
    Receiving final.state final.stack ∧ Layered final.stack ∧
      Pipelined final.state final.stack :=
  pipelined_preserved.run
    (⟨receiving_initial config, layered_nil, pipelined_initial config⟩ :
      Receiving (start config).state (start config).stack ∧
        Layered (start config).stack ∧
          Pipelined (start config).state (start config).stack)
    onDelivery ran

/-- The pieces are one block for each request, in the order of arrival. -/
theorem inBlocks_of_onDelivery
    {config : ConnectionConfig}
    {labels : List Label}
    {final : Config}
    (ran : run? config labels = some final)
    (onDelivery : machine.Guarded RespondsOnDelivery (start config) labels) :
    InBlocks final.state :=
  (run?_pipelined ran onDelivery).2.2.logged.inBlocks

end UniEventHttp.ServerConnection
