import Mathlib.Data.List.Perm.Subperm
import UniEventHttp.ServerDeeds
import UniEventHttp.ServerOrder
import UniEventHttp.ServerStopping

namespace UniEventHttp.ServerConnection

/-!
# The keep-alive quota

`max_keepalive_requests` bounds the responses of a connection.  `respond` counts
them, and the one that uses the quota up ends the connection, but only if its
request is the only one in the deque at that moment.
-/

/-! ## The property -/

/-- The head of a response, with the request that it answers. -/
def head? : Piece → Option (Nat × ServerResponse)
  | .head req response => some (req, response)
  | _ => none

/-- The response heads written on the connection, in order. -/
def heads (c : ServerConnection) : List (Nat × ServerResponse) :=
  c.written.filterMap head?

/-- At most `quota` heads are written, and the last of so many ends keep-alive. -/
def WithinQuota (quota : Nat) (c : ServerConnection) : Prop :=
  0 < quota →
  c.heads.length ≤ quota ∧
    ∀ head, c.heads[quota - 1]? = some head → head.2.keepAlive = false

/-! ## The condition -/

/-- The request that a step responds to. -/
def answers? (config : Config) : Label → Option Nat
  | .input (.respond req _) => some req
  | .tick =>
      match config.stack with
      | .requestErrorReturn req :: _ => some req
      | _ => none
  | _ => none

/-- `finish_request` takes up no response whose head has been written. -/
def TakesUpUnwritten (config : Config) : Prop :=
  config.stack.head? = some .finishReturn →
  config.state.closing = false →
  config.state.stopping = false →
  ∀ req ∈ config.state.requests.head?, ¬ config.state.Started req

/--
The response that uses the quota up is given while its request is alone in the
deque, no request is created after it, and no head is written twice.
-/
def KeepsQuota (config : Config) (label : Label) : Prop :=
  let c := config.state
  let quota := c.config.maxKeepaliveRequests
  (∀ req ∈ answers? config label,
      c.Attached req →
      ¬ c.Responded req →
      quota ≤ c.requestsProcessed + 1 →
      c.requests.length = 1) ∧
    (createsRequest config label = true → c.requestsProcessed < quota) ∧
    (label = .tick → TakesUpUnwritten config)

instance (config : Config) : Decidable (TakesUpUnwritten config) :=
  inferInstanceAs (Decidable (_ → _ → _ → ∀ req ∈ config.state.requests.head?, _))

instance (config : Config) (label : Label) :
    Decidable (KeepsQuota config label) := by
  unfold KeepsQuota
  dsimp only
  infer_instance

/-! ## The invariant -/

/-- The requests whose heads have been written. -/
def headed (c : ServerConnection) : List Nat :=
  c.heads.map Prod.fst

/-- The request that is answered by an observed response. -/
def answered? : Event → Option Nat
  | .responded req _ => some req
  | _ => none

/-- The requests for which `respond` has accepted a response. -/
def answered (c : ServerConnection) : List Nat :=
  c.trace.filterMap answered?

/-- The quota is used up, and no further head will be written that is not the last. -/
structure UsedUp (quota : Nat) (c : ServerConnection) : Prop where
  exactly : c.requestsProcessed = quota
  attached : ∀ req, c.Attached req → c.Responded req
  unwritten :
    ∀ req ∈ c.requests, c.Attached req → req ∉ c.headed → c.SaysClose req
  last :
    c.heads.length < quota ∨
      ∀ head ∈ c.heads.getLast?, head.2.keepAlive = false

/-- What has been answered and written, and what is attached. -/
structure Counted
    (quota : Nat)
    (c : ServerConnection)
    (stack : List Frame) : Prop where
  limit : c.config.maxKeepaliveRequests = quota
  tail : ∀ req ∈ c.requests.tail, c.Attached req
  held : ∀ req ∈ held stack, c.Attached req ∧ req ∈ c.headed
  returning : .finishReturn ∈ stack → ∀ req ∈ c.requests, c.Attached req
  writeOnTop : .writeNextResponse ∉ stack.tail
  writing :
    stack.head? = some .writeNextResponse →
    ∀ req ∈ c.requests.head?, c.Attached req ∧ req ∉ c.headed
  answered : ∀ req ∈ c.answered, req < c.nextId ∧ c.Responded req
  responded : ∀ req, c.Responded req → req ∈ c.answered
  answeredOnce : c.answered.Nodup
  processed : c.answered.length = c.requestsProcessed
  headed : ∀ req ∈ c.headed, req ∈ c.answered
  headedOnce : c.headed.Nodup
  full : quota ≤ c.requestsProcessed → UsedUp quota c

/-! ## Steps that neither count nor write a head -/

/-- The deque and the responses are the same, as far as the quota goes. -/
structure SameQuota (c next : ServerConnection) : Prop where
  config : next.config = c.config
  requests : next.requests = c.requests
  nextId : next.nextId = c.nextId
  attached : ∀ req, next.Attached req ↔ c.Attached req
  responded : ∀ req, next.Responded req ↔ c.Responded req
  saysClose : ∀ req, c.SaysClose req → next.SaysClose req
  processed : next.requestsProcessed = c.requestsProcessed
  answered : next.answered = c.answered
  heads : next.heads = c.heads

namespace SameQuota

theorem refl (c : ServerConnection) : SameQuota c c :=
  ⟨rfl, rfl, rfl, fun _ => Iff.rfl, fun _ => Iff.rfl, fun _ => id, rfl, rfl, rfl⟩

theorem trans
    {first second third : ServerConnection}
    (one : SameQuota first second)
    (two : SameQuota second third) :
    SameQuota first third where
  config := two.config.trans one.config
  requests := two.requests.trans one.requests
  nextId := two.nextId.trans one.nextId
  attached req := (two.attached req).trans (one.attached req)
  responded req := (two.responded req).trans (one.responded req)
  saysClose req close := two.saysClose req (one.saysClose req close)
  processed := two.processed.trans one.processed
  answered := two.answered.trans one.answered
  heads := two.heads.trans one.heads

theorem headed
    {c next : ServerConnection}
    (same : SameQuota c next) :
    next.headed = c.headed := by
  unfold ServerConnection.headed
  rw [same.heads]

/-- Only the flags, the stream, the timer and the parser change. -/
theorem of_store
    {c next : ServerConnection}
    (config : next.config = c.config)
    (requests : next.requests = c.requests)
    (nextId : next.nextId = c.nextId)
    (store : next.store = c.store)
    (processed : next.requestsProcessed = c.requestsProcessed)
    (answered : next.answered = c.answered)
    (heads : next.heads = c.heads) :
    SameQuota c next :=
  ⟨config, requests, nextId, fun _ => by simp [Attached, store],
    fun _ => by simp [Responded, store], fun _ => by simp [SaysClose, store],
    processed, answered, heads⟩

theorem emit
    (c : ServerConnection)
    {event : Event}
    (unanswered : answered? event = none)
    (noPiece : piece? event = none) :
    SameQuota c (c.emit event) := by
  refine of_store rfl rfl rfl rfl rfl ?_ ?_
  · simp [ServerConnection.answered, ServerConnection.emit, unanswered]
  · simp [ServerConnection.heads, noPiece]

theorem write
    (c : ServerConnection)
    {piece : Piece}
    (noHead : head? piece = none) :
    SameQuota c (c.write piece) := by
  refine of_store rfl rfl rfl rfl rfl ?_ ?_
  · simp [ServerConnection.answered, ServerConnection.write, answered?]
  · simp [ServerConnection.heads, noHead]

theorem setRequest
    (c : ServerConnection)
    (req : Nat)
    (request : ServerRequest)
    (connection : request.connection = (c.store req).connection)
    (response : request.response = (c.store req).response) :
    SameQuota c (c.setRequest req request) := by
  refine ⟨rfl, rfl, rfl, fun other => ?_, fun other => ?_, fun other => ?_, rfl,
    rfl, rfl⟩
  · by_cases same : other = req <;> simp [Attached, same, connection]
  · by_cases same : other = req <;> simp [Responded, same, response]
  · by_cases same : other = req <;> simp [SaysClose, same, response]

theorem setResponse
    {c : ServerConnection}
    {req : Nat}
    {given response : ServerResponse}
    (stored : (c.store req).response = some given)
    (keepAlive : given.keepAlive = false → response.keepAlive = false) :
    SameQuota c (c.setResponse req response) := by
  refine ⟨rfl, rfl, rfl, fun other => ?_, fun other => ?_, fun other => ?_, rfl,
    rfl, rfl⟩
  · by_cases same : other = req <;> simp [Attached, same]
  · by_cases same : other = req <;> simp [Responded, same, stored]
  · by_cases same : other = req
    · simpa [SaysClose, same, stored] using keepAlive
    · simp [SaysClose, same]

theorem readIgnore (c : ServerConnection) : SameQuota c c.readIgnore := by
  have ignored : SameQuota c (c.emit .readIgnored) := emit c rfl rfl
  exact of_store rfl rfl rfl rfl rfl ignored.answered ignored.heads

theorem writeChunks
    (c : ServerConnection)
    (req : Nat)
    (chunks : List Data) :
    SameQuota c (c.writeChunks req chunks) := by
  induction chunks generalizing c with
  | nil =>
      exact refl c
  | cons data rest inductionHypothesis =>
      exact (write c rfl).trans (inductionHypothesis _)

theorem startClosing (c : ServerConnection) (req : Nat) :
    SameQuota c (c.startClosing req) := by
  have closing : SameQuota c { c with closing := true } :=
    of_store rfl rfl rfl rfl rfl rfl rfl
  unfold ServerConnection.startClosing
  dsimp only
  split
  · exact closing.trans (readIgnore _)
  · exact closing

theorem idles
    {c next : ServerConnection}
    (idles : Idles c next) :
    SameQuota c next := by
  cases idles with
  | busy _ | already _ _ _ =>
      exact refl c
  | arms _ _ _ =>
      exact of_store rfl rfl rfl rfl rfl rfl rfl

theorem closes
    {c middle next : ServerConnection}
    {cause : Cause}
    {error : Option ErrorCode}
    {soft : Bool}
    {frames : List Frame}
    (closes : Closes c cause middle error soft)
    (executed : middle.doClose error soft = .next next frames) :
    SameQuota c next := by
  have reached : SameQuota c middle := by
    cases closes <;> exact of_store rfl rfl rfl rfl rfl rfl rfl
  have closed : SameQuota middle (middle.emit (.closed soft)) :=
    emit middle rfl rfl
  refine reached.trans (closed.trans ?_)
  cases soft with
  | true | false =>
      cases executed
      exact of_store rfl rfl rfl rfl rfl rfl rfl

theorem sendsChunk
    {c next : ServerConnection}
    {req : Nat}
    {data : Data}
    (sends : SendsChunk c req data next) :
    SameQuota c next := by
  have gave : SameQuota c (c.emit (.gaveChunk req data)) := emit c rfl rfl
  cases sends with
  | empty _ =>
      exact gave
  | writes _ _ =>
      exact gave.trans (write _ rfl)
  | keeps stored =>
      exact gave.trans (setResponse stored id)

theorem sendsFinal
    {c next : ServerConnection}
    {req : Nat}
    {data : Data}
    {frames : List Frame}
    (sends : SendsFinal c req data next frames) :
    SameQuota c next := by
  have gave : SameQuota c (c.emit (.gaveFinalChunk req data)) := emit c rfl rfl
  cases sends with
  | writes stored _ =>
      refine SameQuota.trans ?_ (write _ rfl)
      exact gave.trans (setResponse stored id)
  | keeps stored =>
      exact gave.trans (setResponse stored id)

end SameQuota

/-! ## The counters -/

theorem mem_headed (c : ServerConnection) (req : Nat) :
    req ∈ c.headed ↔ c.Started req := by
  constructor
  · intro member
    obtain ⟨head, isHead, rfl⟩ := List.mem_map.mp member
    obtain ⟨piece, inWritten, shape⟩ := List.mem_filterMap.mp isHead
    cases piece with
    | head other response =>
        cases shape
        exact ⟨response, inWritten⟩
    | _ =>
        cases shape
  · rintro ⟨response, member⟩
    exact List.mem_map.mpr
      ⟨(req, response), List.mem_filterMap.mpr ⟨_, member, rfl⟩, rfl⟩

section

variable
  {quota : Nat}
  {c next : ServerConnection}
  {cause : Cause}
  {stack below frames : List Frame}
  {req : Nat}

/-- No more heads are written than responses are accepted. -/
theorem Counted.heads_le
    (counted : Counted quota c stack) :
    c.heads.length ≤ c.requestsProcessed := by
  have bound := (counted.headedOnce.subperm counted.headed).length_le
  rwa [counted.processed, ServerConnection.headed, List.length_map] at bound

theorem Counted.withinQuota
    (counted : Counted quota c stack) :
    WithinQuota quota c := by
  intro positive
  have bound := counted.heads_le
  by_cases full : quota ≤ c.requestsProcessed
  · have used := counted.full full
    have exactly := used.exactly
    refine ⟨by omega, fun head isLast => ?_⟩
    have inside := List.getElem?_eq_some_iff.mp isLast
    obtain ⟨short, _⟩ := inside
    rcases used.last with fewer | last
    · omega
    · apply last head
      rw [List.getLast?_eq_getElem?]
      have isQuota : c.heads.length - 1 = quota - 1 := by omega
      rw [isQuota]
      exact isLast
  · refine ⟨by omega, fun head isLast => ?_⟩
    have inside := List.getElem?_eq_some_iff.mp isLast
    obtain ⟨short, _⟩ := inside
    omega

theorem UsedUp.same
    (used : UsedUp quota c)
    (same : SameQuota c next) :
    UsedUp quota next where
  exactly := same.processed.trans used.exactly
  attached req attached :=
    (same.responded req).mpr
      (used.attached req ((same.attached req).mp attached))
  unwritten req member attached unwritten := by
    rw [same.requests] at member
    rw [same.headed] at unwritten
    exact same.saysClose req
      (used.unwritten req member ((same.attached req).mp attached) unwritten)
  last := by
    rw [same.heads]
    exact used.last

theorem Counted.same
    (counted : Counted quota c stack)
    (same : SameQuota c next) :
    Counted quota next stack where
  limit := same.config ▸ counted.limit
  tail req member := by
    rw [same.requests] at member
    exact (same.attached req).mpr (counted.tail req member)
  held req member := by
    rw [same.headed, same.attached]
    exact counted.held req member
  returning member req inDeque := by
    rw [same.requests] at inDeque
    exact (same.attached req).mpr (counted.returning member req inDeque)
  writeOnTop := counted.writeOnTop
  writing isTop req isFirst := by
    rw [same.requests] at isFirst
    rw [same.headed, same.attached]
    exact counted.writing isTop req isFirst
  answered req member := by
    rw [same.answered] at member
    rw [same.nextId, same.responded]
    exact counted.answered req member
  responded req isResponded := by
    rw [same.answered]
    exact counted.responded req ((same.responded req).mp isResponded)
  answeredOnce := same.answered ▸ counted.answeredOnce
  processed := by
    rw [same.answered, same.processed]
    exact counted.processed
  headed req member := by
    rw [same.headed] at member
    rw [same.answered]
    exact counted.headed req member
  headedOnce := same.headed ▸ counted.headedOnce
  full full := by
    rw [same.processed] at full
    exact (counted.full full).same same

/-- The counters are the same, on a stack on which less is known. -/
theorem Counted.restack
    {other : List Frame}
    (counted : Counted quota c stack)
    (same : SameQuota c next)
    (held :
      ∀ req ∈ ServerConnection.held other, req ∈ ServerConnection.held stack)
    (returning : .finishReturn ∈ other → .finishReturn ∈ stack)
    (notWriting : .writeNextResponse ∉ other) :
    Counted quota next other :=
  { counted.same same with
    held := fun req member => (counted.same same).held req (held req member)
    returning := fun member => (counted.same same).returning (returning member)
    writeOnTop := fun member => notWriting (List.mem_of_mem_tail member)
    writing := fun isTop => (notWriting (List.mem_of_mem_head? isTop)).elim }

/-- Only the top frame may write. -/
theorem Counted.notWriting
    (counted : Counted quota c (cause.stack ++ below))
    (fits : cause.Fits below) :
    .writeNextResponse ∉ below := by
  have others : ∀ frame ∈ below, frame ≠ .writeNextResponse := by
    refine fits.all_below (fun _ => by simp) ?_
    rintro frame member rfl
    exact counted.writeOnTop member
  exact fun member => others _ member rfl

/-- A frame that neither writes, nor goes on after a request has left, nor holds one. -/
def isMere : Frame → Bool
  | .finishReturn => false
  | .writeNextResponse => false
  | .dropRequests _ (.writeNextResponse _ _) => false
  | _ => true

/-- Mere frames are pushed. -/
theorem Counted.push
    (counted : Counted quota c below)
    (notWriting : .writeNextResponse ∉ below)
    (mere : ∀ frame ∈ frames, isMere frame = true) :
    Counted quota c (frames ++ below) := by
  refine counted.restack (SameQuota.refl c) (fun req member => ?_)
    (fun member => ?_) (fun member => ?_)
  · rw [held_append] at member
    rcases List.mem_append.mp member with inFrames | inBelow
    · obtain ⟨frame, isFrame, holds⟩ := List.mem_filterMap.mp inFrames
      have isMere := mere frame isFrame
      unfold held? at holds
      split at holds
      · cases isMere
      · cases holds
    · exact inBelow
  · rcases List.mem_append.mp member with inFrames | inBelow
    · cases mere _ inFrames
    · exact inBelow
  · rcases List.mem_append.mp member with inFrames | inBelow
    · cases mere _ inFrames
    · exact notWriting inBelow

/-- A step that counts nothing and pushes mere frames. -/
theorem Counted.after
    (counted : Counted quota c (cause.stack ++ below))
    (fits : cause.Fits below)
    (same : SameQuota c next)
    (mere : ∀ frame ∈ frames, isMere frame = true) :
    Counted quota next (frames ++ below) := by
  have notWriting := counted.notWriting fits
  have returned : Counted quota next below := by
    refine counted.restack same (fun req member => ?_)
      (List.mem_append_right _) notWriting
    rw [held_append]
    exact List.mem_append_right _ member
  exact returned.push notWriting mere

/-- The first request leaves the deque. -/
theorem Counted.leave
    {rest : List Nat}
    {other : List Frame}
    (counted : Counted quota c stack)
    (receiving : Receiving c stack)
    (shape : c.requests = req :: rest)
    (same : SameQuota (c.cleanupRequest req rest) next)
    (held :
      ∀ req ∈ ServerConnection.held other, req ∈ ServerConnection.held stack)
    (notWriting : .writeNextResponse ∉ other) :
    Counted quota next other := by
  have cleanAttached :
      ∀ other, (c.cleanupRequest req rest).Attached other ↔
        c.Attached other ∧ other ≠ req := by
    intro other
    by_cases isFirst : other = req <;>
      simp [cleanupRequest, emit, Attached, setRequest, isFirst]
  have cleanStore :
      ∀ other, ((c.cleanupRequest req rest).store other).response =
        (c.store other).response := by
    intro other
    by_cases isFirst : other = req <;>
      simp [cleanupRequest, emit, setRequest, isFirst]
  have cleanAnswered :
      (c.cleanupRequest req rest).answered = c.answered := by
    simp [cleanupRequest, emit, setRequest, ServerConnection.answered, answered?]
  have cleanHeads : (c.cleanupRequest req rest).heads = c.heads := by
    simp [cleanupRequest, emit, setRequest, heads, written, piece?]
  have sorted := receiving.sorted
  rw [shape, List.pairwise_cons] at sorted
  have restAttached : ∀ other ∈ rest, next.Attached other := by
    intro other member
    have isTail : other ∈ c.requests.tail := by
      rw [shape]
      exact member
    have := sorted.1 other member
    rw [same.attached, cleanAttached]
    exact ⟨counted.tail other isTail, by omega⟩
  have nextHeads : next.heads = c.heads := same.heads.trans cleanHeads
  have nextAnswered : next.answered = c.answered :=
    same.answered.trans cleanAnswered
  have nextResponded : ∀ other, next.Responded other ↔ c.Responded other := by
    intro other
    rw [same.responded, Responded, cleanStore, Responded]
  have nextHeaded : next.headed = c.headed := by
    unfold ServerConnection.headed
    rw [nextHeads]
  refine
    { limit := same.config ▸ counted.limit
      tail := fun other member => ?_
      held := fun other member => ?_
      returning := fun _ other member => ?_
      writeOnTop := fun member => notWriting (List.mem_of_mem_tail member)
      writing := fun isTop => (notWriting (List.mem_of_mem_head? isTop)).elim
      answered := fun other member => ?_
      responded := fun other isResponded => ?_
      answeredOnce := nextAnswered ▸ counted.answeredOnce
      processed := ?_
      headed := ?_
      headedOnce := nextHeaded ▸ counted.headedOnce
      full := fun full => ?_ }
  · rw [same.requests] at member
    exact restAttached other (List.mem_of_mem_tail member)
  · have wasHeld := held other member
    have inDeque : req ∈ c.requests := by simp [shape]
    have different : other ≠ req := by
      rintro rfl
      exact (receiving.heldApart other wasHeld).2.1 inDeque
    rw [nextHeaded, same.attached, cleanAttached]
    exact ⟨⟨(counted.held other wasHeld).1, different⟩,
      (counted.held other wasHeld).2⟩
  · rw [same.requests] at member
    exact restAttached other member
  · rw [nextAnswered] at member
    rw [same.nextId, nextResponded]
    exact counted.answered other member
  · rw [nextAnswered]
    exact counted.responded other ((nextResponded other).mp isResponded)
  · rw [nextAnswered, same.processed]
    exact counted.processed
  · rw [nextHeaded, nextAnswered]
    exact counted.headed
  · rw [same.processed] at full
    have used := counted.full full
    refine
      { exactly := same.processed.trans used.exactly
        attached := fun other attached => ?_
        unwritten := fun other member attached unwritten => ?_
        last := nextHeads ▸ used.last }
    · rw [same.attached, cleanAttached] at attached
      rw [nextResponded]
      exact used.attached other attached.1
    · have inDeque : other ∈ c.requests := by
        rw [same.requests] at member
        rw [shape]
        exact List.mem_cons_of_mem _ member
      rw [same.attached, cleanAttached] at attached
      rw [nextHeaded] at unwritten
      apply same.saysClose
      intro response isResponse
      rw [cleanStore] at isResponse
      exact used.unwritten other inDeque attached.1 unwritten response isResponse

/-! ## Answering and writing -/

theorem Counted.headedResponded
    (counted : Counted quota c stack)
    (isHeaded : req ∈ c.headed) :
    c.Responded req :=
  (counted.answered req (counted.headed req isHeaded)).2

/-- A response is counted, and the last one ends keep-alive. -/
theorem Counted.answers
    {response : ServerResponse}
    {front : Nat}
    {rest : List Nat}
    (positive : 0 < quota)
    (counted : Counted quota c (cause.stack ++ below))
    (receiving : Receiving c (cause.stack ++ below))
    (fits : cause.Fits below)
    (permitted : KeepsQuota ⟨c, cause.stack ++ below, none⟩ cause.label)
    (answers : Answers c cause req response)
    (attached : c.Attached req)
    (unanswered : ¬ c.Responded req)
    (shape : c.requests = front :: rest) :
    Counted quota (c.takeResponse req response)
      ((if front = req then [.writeNextResponse] else []) ++ below) := by
  have notWriting := counted.notWriting fits
  have isAnswer :
      answers? ⟨c, cause.stack ++ below, none⟩ cause.label = some req := by
    cases answers <;> rfl
  have alone :
      quota ≤ c.requestsProcessed + 1 → c.requests.length = 1 := by
    intro full
    apply permitted.1 req isAnswer attached unanswered
    exact counted.limit ▸ full
  have notHeaded : req ∉ c.headed :=
    fun isHeaded => unanswered (counted.headedResponded isHeaded)
  have notAnswered : req ∉ c.answered :=
    fun isAnswered => unanswered (counted.answered req isAnswered).2
  have sameAttached :
      ∀ other, (c.takeResponse req response).Attached other ↔
        c.Attached other := by
    intro other
    exact (Kept.takeResponse c req response).attached other
  have nowAnswered :
      (c.takeResponse req response).answered = c.answered ++ [req] := by
    simp [takeResponse, emit, setResponse, setRequest,
      ServerConnection.answered, answered?]
  have sameHeads : (c.takeResponse req response).heads = c.heads := by
    simp [takeResponse, emit, setResponse, setRequest, heads, written, piece?]
  have sameHeaded : (c.takeResponse req response).headed = c.headed := by
    unfold ServerConnection.headed
    rw [sameHeads]
  have heldBelow :
      ∀ other,
        other ∈ ServerConnection.held
          ((if front = req then [.writeNextResponse] else []) ++ below) →
        other ∈ ServerConnection.held (cause.stack ++ below) := by
    intro other member
    rw [held_append] at member ⊢
    refine List.mem_append_right _ ?_
    split at member <;> simpa [ServerConnection.held, held?] using member
  refine
    { limit := counted.limit
      tail := fun other member => ?_
      held := fun other member => ?_
      returning := fun member other inDeque => ?_
      writeOnTop := fun member => ?_
      writing := fun isTop other isFirst => ?_
      answered := fun other member => ?_
      responded := fun other isResponded => ?_
      answeredOnce := ?_
      processed := ?_
      headed := fun other isHeaded => ?_
      headedOnce := sameHeaded ▸ counted.headedOnce
      full := fun full => ?_ }
  · rw [sameAttached]
    exact counted.tail other member
  · rw [sameAttached, sameHeaded]
    exact counted.held other (heldBelow other member)
  · rw [sameAttached]
    refine counted.returning ?_ other inDeque
    rcases List.mem_append.mp member with inFrames | inBelow
    · split at inFrames <;> simp at inFrames
    · exact List.mem_append_right _ inBelow
  · split at member
    · exact notWriting member
    · exact notWriting (List.mem_of_mem_tail member)
  · rw [sameAttached, sameHeaded]
    split at isTop
    · rename_i isFront
      have same : other = req := by
        rw [← isFront]
        change other ∈ c.requests.head? at isFirst
        rw [shape] at isFirst
        simpa using isFirst.symm
      rw [same]
      exact ⟨attached, notHeaded⟩
    · exact (notWriting (List.mem_of_mem_head? isTop)).elim
  · rw [nowAnswered] at member
    rw [responded_takeResponse]
    rcases List.mem_append.mp member with old | new
    · obtain ⟨known, responded⟩ := counted.answered other old
      exact ⟨known, Or.inr responded⟩
    · have same : other = req := by simpa using new
      rw [same]
      exact ⟨receiving.attachedBelow req attached, Or.inl rfl⟩
  · rw [responded_takeResponse] at isResponded
    rw [nowAnswered]
    rcases isResponded with rfl | old
    · simp
    · exact List.mem_append_left _ (counted.responded other old)
  · rw [nowAnswered]
    exact List.nodup_append.mpr ⟨counted.answeredOnce, by simp, by
      rintro old isOld new isNew rfl
      rw [List.mem_singleton.mp isNew] at isOld
      exact notAnswered isOld⟩
  · rw [nowAnswered, List.length_append, counted.processed]
    rfl
  · rw [sameHeaded] at isHeaded
    rw [nowAnswered]
    exact List.mem_append_left _ (counted.headed other isHeaded)
  · have full : quota ≤ c.requestsProcessed + 1 := full
    have single := alone full
    have notFull : c.requestsProcessed < quota := by
      by_contra already
      exact unanswered
        ((counted.full (by omega)).attached req attached)
    have only : ∀ other, c.Attached other → ¬ c.Responded other →
        c.requests = [other] := by
      intro other isAttached isUnanswered
      rcases receiving.located other isAttached with inDeque | isHeld
      · obtain ⟨first, isOnly⟩ := List.length_eq_one_iff.mp single
        rw [isOnly, List.mem_singleton] at inDeque
        rw [isOnly, inDeque]
      · have isHeaded := (counted.held other isHeld).2
        exact (isUnanswered (counted.headedResponded isHeaded)).elim
    have deque := only req attached unanswered
    have stopping : (c.takeResponse req response).stopping = true := by
      have limit := counted.limit
      simp only [takeResponse, emit, setResponse, setRequest, limit,
        single, Bool.or_eq_true, decide_eq_true_eq]
      right
      exact ⟨by omega, full, trivial⟩
    refine
      { exactly := ?_
        attached := fun other isAttached => ?_
        unwritten := fun other inDeque _ _ => ?_
        last := ?_ }
    · change c.requestsProcessed + 1 = quota
      omega
    · rw [sameAttached] at isAttached
      rw [responded_takeResponse]
      by_contra isUnanswered
      rw [not_or] at isUnanswered
      have same := only other isAttached isUnanswered.2
      rw [deque] at same
      exact isUnanswered.1 (List.cons.inj same).1.symm
    · change other ∈ c.requests at inDeque
      rw [deque, List.mem_singleton] at inDeque
      rw [inDeque]
      exact fun stored isStored => keepAlive_takeResponse isStored stopping
    · left
      rw [sameHeads]
      have := counted.heads_le
      omega

/-- The head of a response is written for the first request. -/
theorem Counted.writesHead
    {given response : ServerResponse}
    {rest deque : List Nat}
    {other : List Frame}
    (counted : Counted quota c stack)
    (isTop : stack.head? = some .writeNextResponse)
    (shape : c.requests = req :: rest)
    (stored : (c.store req).response = some given)
    (keepAlive : given.keepAlive = false → response.keepAlive = false)
    (inDeque : ∀ req ∈ deque, req ∈ c.requests)
    (inTail : ∀ req ∈ deque.tail, req ∈ c.requests.tail)
    (held :
      ∀ other' ∈ ServerConnection.held other,
        other' = req ∨ other' ∈ ServerConnection.held stack)
    (returning : .finishReturn ∈ other → .finishReturn ∈ stack)
    (notWriting : .writeNextResponse ∉ other) :
    Counted quota { c.writeHead req response with requests := deque } other := by
  have same : SameQuota c (c.setResponse req response) :=
    SameQuota.setResponse stored keepAlive
  obtain ⟨attached, notHeaded⟩ :=
    counted.writing isTop req (by simp [shape])
  have heads :
      ({ c.writeHead req response with requests := deque } :
        ServerConnection).heads = c.heads ++ [(req, response)] := by
    simp [ServerConnection.heads, writeHead, written, write, setResponse,
      setRequest, piece?, head?]
  have headed :
      ({ c.writeHead req response with requests := deque } :
        ServerConnection).headed = c.headed ++ [req] := by
    unfold ServerConnection.headed
    rw [heads, List.map_append]
    rfl
  have answered :
      ({ c.writeHead req response with requests := deque } :
        ServerConnection).answered = c.answered := by
    simp [ServerConnection.answered, writeHead, write, setResponse, setRequest,
      answered?]
  have isResponded : c.Responded req := by
    simp [Responded, stored]
  refine
    { limit := counted.limit
      tail := fun other member =>
        (same.attached other).mpr (counted.tail other (inTail other member))
      held := fun other member => ?_
      returning := fun member other isMember =>
        (same.attached other).mpr
          (counted.returning (returning member) other (inDeque other isMember))
      writeOnTop := fun member => notWriting (List.mem_of_mem_tail member)
      writing := fun isTop => (notWriting (List.mem_of_mem_head? isTop)).elim
      answered := fun other member => ?_
      responded := fun other isResponded => ?_
      answeredOnce := answered ▸ counted.answeredOnce
      processed := ?_
      headed := fun other isHeaded => ?_
      headedOnce := ?_
      full := fun full => ?_ }
  · rw [headed]
    rcases held other member with rfl | isHeld
    · exact ⟨(same.attached _).mpr attached, by simp⟩
    · obtain ⟨isAttached, isHeaded⟩ := counted.held other isHeld
      exact ⟨(same.attached other).mpr isAttached,
        List.mem_append_left _ isHeaded⟩
  · rw [answered] at member
    obtain ⟨known, responded⟩ := counted.answered other member
    exact ⟨known, (same.responded other).mpr responded⟩
  · rw [answered]
    exact counted.responded other ((same.responded other).mp isResponded)
  · rw [answered]
    exact counted.processed
  · rw [answered]
    rw [headed] at isHeaded
    rcases List.mem_append.mp isHeaded with old | new
    · exact counted.headed other old
    · rw [List.mem_singleton.mp new]
      exact counted.responded req isResponded
  · rw [headed]
    exact List.nodup_append.mpr ⟨counted.headedOnce, by simp, by
      rintro old isOld new isNew rfl
      rw [List.mem_singleton.mp isNew] at isOld
      exact notHeaded isOld⟩
  · have used := counted.full full
    refine
      { exactly := used.exactly
        attached := fun other isAttached =>
          (same.responded other).mpr
            (used.attached other ((same.attached other).mp isAttached))
        unwritten := fun other member isAttached isUnwritten => ?_
        last := ?_ }
    · rw [headed, List.mem_append, not_or] at isUnwritten
      exact same.saysClose other
        (used.unwritten other (inDeque other member)
          ((same.attached other).mp isAttached) isUnwritten.1)
    · right
      rw [heads]
      simp only [List.getLast?_append, List.getLast?_singleton, Option.some_or,
        Option.mem_def, Option.some.injEq, forall_eq']
      apply keepAlive
      exact used.unwritten req (by simp [shape]) attached notHeaded given stored

/-- The request that was held is back in the deque. -/
theorem Counted.restore
    {other : List Frame}
    (counted : Counted quota c stack)
    (isHeld : req ∈ ServerConnection.held stack)
    (held :
      ∀ req ∈ ServerConnection.held other, req ∈ ServerConnection.held stack)
    (notWriting : .writeNextResponse ∉ other) :
    Counted quota { c with requests := [req] } other := by
  obtain ⟨attached, isHeaded⟩ := counted.held req isHeld
  refine
    { counted with
      tail := nofun
      held := fun other member => counted.held other (held other member)
      returning := fun _ other member => ?_
      writeOnTop := fun member => notWriting (List.mem_of_mem_tail member)
      writing := fun isTop => (notWriting (List.mem_of_mem_head? isTop)).elim
      full := fun full =>
        { counted.full full with unwritten := fun other member _ fresh => ?_ } }
  · rw [List.mem_singleton.mp member]
    exact attached
  · rw [List.mem_singleton.mp member] at fresh
    exact (fresh isHeaded).elim

/-! ## Reading -/

/-- A request object is created while the quota is not used up. -/
theorem Counted.create
    (counted : Counted quota c stack)
    (config : next.config = c.config)
    (processed : next.requestsProcessed = c.requestsProcessed)
    (isNext : req = c.nextId)
    (requests : next.requests = c.requests ++ [req])
    (nextId : next.nextId = c.nextId + 1)
    (others : ∀ other, other ≠ req → next.store other = c.store other)
    (attached : next.Attached req)
    (unanswered : ¬ next.Responded req)
    (answered : next.answered = c.answered)
    (heads : next.heads = c.heads)
    (notFull : c.requestsProcessed < quota) :
    Counted quota next [] := by
  have sameHeaded : next.headed = c.headed := by
    unfold ServerConnection.headed
    rw [heads]
  refine
    { limit := config ▸ counted.limit
      tail := fun other member => ?_
      held := nofun
      returning := nofun
      writeOnTop := nofun
      writing := nofun
      answered := fun other member => ?_
      responded := fun other isResponded => ?_
      answeredOnce := answered ▸ counted.answeredOnce
      processed := ?_
      headed := ?_
      headedOnce := sameHeaded ▸ counted.headedOnce
      full := fun full => ?_ }
  · rw [requests] at member
    by_cases same : other = req
    · rw [same]
      exact attached
    · have inTail : other ∈ c.requests.tail := by
        cases shape : c.requests with
        | nil =>
            simp [shape] at member
        | cons front rest =>
            simpa [shape, same] using member
      have isAttached := counted.tail other inTail
      unfold Attached at isAttached ⊢
      rwa [others other same]
  · rw [answered] at member
    obtain ⟨known, responded⟩ := counted.answered other member
    have different : other ≠ req := by omega
    refine ⟨by omega, ?_⟩
    unfold Responded at responded ⊢
    rwa [others other different]
  · rw [answered]
    by_cases same : other = req
    · rw [same] at isResponded
      exact (unanswered isResponded).elim
    · unfold Responded at isResponded
      rw [others other same] at isResponded
      exact counted.responded other isResponded
  · rw [answered, processed]
    exact counted.processed
  · rw [sameHeaded, answered]
    exact counted.headed
  · omega

theorem counters_parseRequest (c : ServerConnection) (result : Parsed) :
    (c.parseRequest result).1.config = c.config ∧
      (c.parseRequest result).1.requestsProcessed = c.requestsProcessed := by
  cases parsing : c.parsing with
  | some req =>
      by_cases last : c.requests.getLast? = some req <;>
        simp [parseRequest, parseShift, stopIdleTimer, parsing, last,
          setRequest, append]
  | none =>
      by_cases last : c.requests.getLast? = some c.nextId <;>
        simp [parseRequest, parseShift, stopIdleTimer, parsing, last,
          setRequest, append, newRequest]

theorem counters_onReadError
    {error : ErrorCode}
    (executed : c.onReadError error = .next next frames) :
    next.config = c.config ∧ next.requestsProcessed = c.requestsProcessed := by
  unfold onReadError at executed
  dsimp only at executed
  split at executed
  · cases executed
  · cases executed
    constructor <;> simp only [setRequest] <;> split <;> try rfl
    all_goals split <;> rfl

/-- What is parsed is no answer, and a new request comes before the last one. -/
theorem Counted.parse
    {result : Parsed}
    {rest : List Parsed}
    (counted : Counted quota c [.onRead (result :: rest)])
    (receiving : Receiving c [.onRead (result :: rest)])
    (permitted : KeepsQuota ⟨c, [.onRead (result :: rest)], none⟩ .tick) :
    Counted quota (c.parseRequest result).1 [] := by
  have parses := parseRequest_parses c result
  obtain ⟨config, processed⟩ := counters_parseRequest c result
  have answered : (c.parseRequest result).1.answered = c.answered := by
    unfold ServerConnection.answered
    obtain ⟨_, _, ⟨_, _, _, trace⟩ | ⟨_, _, _, _, trace⟩⟩ := parses.origin <;>
      rw [trace] <;> split <;> simp [answered?]
  have heads : (c.parseRequest result).1.heads = c.heads := by
    unfold ServerConnection.heads
    rw [parses.written]
  obtain ⟨base, stored, ⟨parsing, rfl, nextId, _⟩ | ⟨idle, rfl, isNext, nextId, _⟩⟩ :=
    parses.origin
  · -- the parser goes on with a request
    have sameConnection :
        ∀ other,
          ((c.parseRequest result).1.store other).connection =
              (c.store other).connection ∧
            ((c.parseRequest result).1.store other).response =
              (c.store other).response := by
      intro other
      by_cases same : other = (c.parseRequest result).2
      · rw [same, stored]
        exact ⟨rfl, rfl⟩
      · rw [parses.others other same]
        exact ⟨rfl, rfl⟩
    have same :
        SameQuota
          { c with requests := (c.parseRequest result).1.requests }
          (c.parseRequest result).1 :=
      ⟨config, rfl, nextId,
        fun other => by
          unfold Attached
          rw [(sameConnection other).1],
        fun other => by
          unfold Responded
          rw [(sameConnection other).2],
        fun other => by
          unfold SaysClose
          rw [(sameConnection other).2]
          exact id,
        processed, answered, heads⟩
    have onDeque :
        Counted quota { c with requests := (c.parseRequest result).1.requests }
          [.onRead (result :: rest)] := by
      obtain ⟨_, ⟨_, _, requests⟩ | ⟨_, empty, requests⟩ | ⟨none, _, _⟩⟩ :=
        receiving.joins parses
      · rw [requests]
        exact counted
      · rw [requests]
        -- the request has been dropped, so that it is not attached any more
        refine
          { counted with
            tail := nofun
            returning := by simp
            writing := by simp
            full := fun full =>
              { counted.full full with
                unwritten := fun other _ attached _ => ?_ } }
        rcases receiving.located other attached with inDeque | isHeld
        · rw [empty] at inDeque
          cases inDeque
        · cases isHeld
      · rw [parsing] at none
        cases none
    exact onDeque.restack same nofun nofun nofun
  · obtain ⟨_, ⟨some, _, _⟩ | ⟨some, _, _⟩ | ⟨_, _, requests⟩⟩ :=
      receiving.joins parses
    · rw [idle] at some
      cases some
    · rw [idle] at some
      cases some
    · refine counted.create config processed isNext requests nextId
        parses.others ?_ ?_ answered heads ?_
      · simp [Attached, stored]
      · simp [Responded, stored]
      · have notFull := permitted.2.1 (by simp [createsRequest, idle])
        exact counted.limit ▸ notFull

theorem Counted.fails
    {error : ErrorCode}
    (counted : Counted quota c [])
    (permitted : KeepsQuota ⟨c, [], none⟩ (.input (.onReadError error)))
    (executed :
      ({ c with stream := { c.stream with ended := true } } :
        ServerConnection).onReadError error = .next next frames)
    (fails :
      ReadFails { c with stream := { c.stream with ended := true } } next req) :
    Counted quota next [] := by
  obtain ⟨config, processed⟩ := counters_onReadError executed
  have answered : next.answered = c.answered := by
    unfold ServerConnection.answered
    rcases fails.origin with ⟨_, _, _, _, trace, _⟩ | ⟨_, _, _, _, trace, _⟩ <;>
      simp [trace, answered?]
  have heads : next.heads = c.heads := by
    unfold ServerConnection.heads
    rw [fails.written]
    rfl
  rcases fails.origin with
    ⟨_, _, requests, nextId, _, stored⟩ |
      ⟨done, isNext, requests, nextId, _, stored⟩
  · have sameStore :
        ∀ other,
          (next.store other).connection = (c.store other).connection ∧
            (next.store other).response = (c.store other).response := by
      intro other
      by_cases same : other = req
      · rw [same, stored]
        exact ⟨rfl, rfl⟩
      · rw [fails.others other same]
        exact ⟨rfl, rfl⟩
    refine counted.restack
      ⟨config, requests, nextId,
        fun other => by
          unfold Attached
          rw [(sameStore other).1],
        fun other => by
          unfold Responded
          rw [(sameStore other).2],
        fun other => by
          unfold SaysClose
          rw [(sameStore other).2]
          exact id,
        processed, answered, heads⟩ nofun nofun nofun
  · refine counted.create config processed isNext requests nextId
      fails.others ?_ ?_ answered heads ?_
    · simp [Attached, stored]
    · simp [Responded, stored]
    · have creates :
          createsRequest ⟨c, [], none⟩ (.input (.onReadError error)) = true := by
        simp only [createsRequest, Option.all_eq_true]
        exact done
      exact counted.limit ▸ permitted.2.1 creates

/-! ## Every step -/

/-- No permitted step exceeds the quota. -/
theorem Counted.step
    (positive : 0 < quota)
    (counted : Counted quota c (cause.stack ++ below))
    (receiving : Receiving c (cause.stack ++ below))
    (fits : cause.Fits below)
    (permitted : KeepsQuota ⟨c, cause.stack ++ below, none⟩ cause.label)
    (deed : Deed c cause next frames) :
    Counted quota next (frames ++ below) := by
  have notWriting := counted.notWriting fits
  have after :
      SameQuota c next →
      (∀ frame ∈ frames, isMere frame = true) →
      Counted quota next (frames ++ below) :=
    fun same mere => counted.after fits same mere
  cases deed with
  | rests _ | dropped _ | receives _ _ =>
      exact after (SameQuota.refl c) (by simp [isMere])
  | fires _ | removes _ =>
      exact after (SameQuota.emit c rfl rfl) (by simp [isMere])
  | parses admits =>
      have nothing : below = [] := receiving.alone rfl
      subst nothing
      have parsed := counted.parse receiving permitted
      cases admits with
      | error _ | headers _ | refuses _ _ _ | again _ _ =>
          exact parsed.restack (SameQuota.refl _) (by simp [ServerConnection.held, held?])
            (by simp) (by simp)
      | routes _ _ _ =>
          exact parsed.restack (SameQuota.setRequest _ _ _ rfl rfl)
            (by simp [ServerConnection.held, held?]) (by simp) (by simp)
  | delivers delivers =>
      exact after (SameQuota.refl c) (by cases delivers <;> simp [isMere])
  | goesOn goesOn =>
      cases goesOn with
      | unfinished | finishes _ | next _ _ _ =>
          exact after (SameQuota.refl c) (by simp [isMere])
      | stops _ _ =>
          exact after (SameQuota.readIgnore c) (by simp [isMere])
  | reports _ _ | ignores =>
      exact after (SameQuota.readIgnore c) (by simp [isMere])
  | answers answers attached unanswered shape =>
      exact counted.answers positive receiving fits permitted answers attached
        unanswered shape
  | marks stored =>
      exact after (SameQuota.setResponse stored fun _ => rfl) (by simp [isMere])
  | writes shape stored writes =>
      rename_i req rest given
      have ends :
          given.keepAlive = false →
          (c.prepared given).withoutTmpChunks.keepAlive = false := by
        rw [keepAlive_prepared]
        exact id
      have wrote :
          ∀ {middle : ServerConnection},
            WritesHead c req rest (c.prepared given).withoutTmpChunks middle →
            Counted quota middle below := by
        intro middle writesHead
        have head :
            Counted quota
              { c.writeHead req (c.prepared given).withoutTmpChunks with
                requests := c.requests }
              below := by
          refine counted.writesHead rfl shape stored ends (fun _ => id)
            (fun _ => id) (fun other member => Or.inr ?_)
            (List.mem_append_right _) notWriting
          rw [held_append]
          exact List.mem_append_right _ member
        refine head.restack ?_ (fun _ => id) id notWriting
        cases writesHead with
        | keepAlive _ _ =>
            exact SameQuota.refl _
        | closing _ =>
            exact SameQuota.startClosing _ req
      cases writes with
      | finish writesHead _ =>
          exact (wrote writesHead).push notWriting (by simp [isMere])
      | flush writesHead _ =>
          exact (wrote writesHead).restack (SameQuota.writeChunks _ req _)
            (fun _ => id) id notWriting
      | hold nonempty either =>
          have head :
              Counted quota
                { c.writeHead req (c.prepared given).withoutTmpChunks with
                  requests := rest }
                ([.dropRequests (some (.http .pipelineCanceled))
                  (.writeNextResponse req (c.prepared given).tmpChunks)] ++
                    below) := by
            refine counted.writesHead rfl shape stored ends (fun other => ?_)
              (fun other => ?_) (fun other member => ?_) (fun member => ?_) ?_
            · rw [shape]
              exact List.mem_cons_of_mem _
            · rw [shape]
              exact List.mem_of_mem_tail
            · rw [held_append] at member ⊢
              rcases List.mem_append.mp member with isFront | inBelow
              · left
                simpa [ServerConnection.held, held?] using isFront
              · right
                exact List.mem_append_right _ inBelow
            · refine List.mem_append_right _ ?_
              simpa using member
            · simpa using notWriting
          have closing :=
            SameQuota.startClosing
              (c.writeHead req (c.prepared given).withoutTmpChunks) req
          refine head.restack ?_ (fun _ => id) id (by simpa using notWriting)
          exact ⟨closing.config, rfl, closing.nextId, closing.attached,
            closing.responded, closing.saysClose, closing.processed,
            closing.answered, closing.heads⟩
  | waits _ _ _ | enables _ =>
      exact after (SameQuota.setRequest c _ _ rfl rfl) (by simp [isMere])
  | leaves shape _ _ =>
      refine counted.leave receiving shape (SameQuota.refl _) ?_ ?_
      · simp [ServerConnection.held, held?, Cause.stack]
      · simpa using notWriting
  | takesUp notClosing notStopping shape _ =>
      rename_i req rest
      have unwritten := permitted.2.2 rfl rfl notClosing notStopping
      refine
        { counted with
          held := counted.held
          returning := fun member => counted.returning ?_
          writeOnTop := notWriting
          writing := fun _ other isFirst => ⟨?_, ?_⟩ }
      · rcases List.mem_cons.mp member with same | inBelow
        · cases same
        · exact List.mem_append_right _ inBelow
      · exact counted.returning (by simp [Cause.stack]) other
          (List.mem_of_mem_head? isFirst)
      · rw [mem_headed]
        exact unwritten other isFirst
  | returns _ _ _ idles =>
      exact after (SameQuota.idles idles) (by simp [isMere])
  | closes closes executed =>
      have pushed := (doClose_next executed).2
      exact after (SameQuota.closes closes executed) (by simp [pushed, isMere])
  | pops shape =>
      refine counted.leave receiving shape (SameQuota.emit _ rfl rfl) ?_ ?_
      · simp [ServerConnection.held, held?, Cause.stack]
      · simpa using notWriting
  | finishesHeld _ _ =>
      refine counted.restore ?_ (fun other member => ?_) (by simpa using notWriting)
      · simp [ServerConnection.held, held?, Cause.stack]
      · rw [held_append] at member ⊢
        refine List.mem_append_right _ ?_
        simpa [ServerConnection.held, held?] using member
  | flushesHeld _ _ =>
      rename_i req chunks _ _
      have restored : Counted quota { c with requests := [req] } below := by
        refine counted.restore ?_ (fun other member => ?_) notWriting
        · simp [ServerConnection.held, held?, Cause.stack]
        · rw [held_append]
          exact List.mem_append_right _ member
      exact restored.restack (SameQuota.writeChunks _ req chunks)
        (fun _ => id) id notWriting
  | notifies notifies =>
      exact after (SameQuota.refl c) (by cases notifies <;> simp [isMere])
  | shutsDown _ =>
      have stopped :
          SameQuota c
            { c.stopIdleTimer with
              stream := { c.stream with listener := false } } :=
        SameQuota.of_store rfl rfl rfl rfl rfl rfl rfl
      exact after (stopped.trans (SameQuota.emit _ rfl rfl)) (by simp [isMere])
  | upgrades attached wants alone =>
      rename_i req
      have same :
          SameQuota (c.cleanupRequest req [])
            ((({ c with
              stream := { c.stream with listener := false }
              idleTimer := none } : ServerConnection).emit
                (.upgraded req)).cleanupRequest req []) := by
        refine SameQuota.of_store rfl rfl rfl rfl rfl ?_ ?_
        · simp [ServerConnection.answered, cleanupRequest, emit, setRequest]
          rfl
        · simp [heads, written, cleanupRequest, emit, setRequest]
          rfl
      refine counted.leave receiving alone same ?_ ?_
      · simp [ServerConnection.held, held?, Cause.stack]
      · simpa using notWriting
  | stops _ =>
      exact after (SameQuota.of_store rfl rfl rfl rfl rfl rfl rfl)
        (by simp [isMere])
  | continues _ _ =>
      exact after (SameQuota.write c rfl) (by simp [isMere])
  | sendsChunk _ sends =>
      exact after (SameQuota.sendsChunk sends) (by simp [isMere])
  | sendsFinal _ sends =>
      exact after (SameQuota.sendsFinal sends)
        (by cases sends <;> simp [isMere])
  | fails executed fails =>
      have nothing : below = [] := fits.2 rfl
      subst nothing
      exact (counted.fails permitted executed fails).restack (SameQuota.refl _)
        (by simp [ServerConnection.held, held?]) (by simp) (by simp)
  | written _ _ idles =>
      have taken :
          SameQuota c
            { c with
              stream :=
                { c.stream with writeQueue := c.stream.writeQueue - 1 } } :=
        SameQuota.of_store rfl rfl rfl rfl rfl rfl rfl
      exact after (taken.trans (SameQuota.idles idles)) (by simp [isMere])

/-! ## Every run -/

theorem counted_preserved (positive : 0 < quota) :
    machine.Preserves KeepsQuota
      (fun c stack => Receiving c stack ∧ Counted quota c stack) := by
  refine preserves_of_deeds ?_ ?_ ?_
  · exact fun cause below c next frames permitted fits receiving counted deed =>
      counted.step positive receiving fits permitted deed
  · intro callback rest c counted
    have notWriting := counted.writeOnTop
    refine counted.restack (SameQuota.refl c) (fun req member => ?_)
      (List.mem_cons_of_mem _) notWriting
    simpa [ServerConnection.held, held?] using member
  · exact fun input stack c exception _ _ _ counted =>
      counted.same (SameQuota.emit c rfl rfl)

theorem counted_initial (config : ConnectionConfig) (positive : 0 < config.maxKeepaliveRequests) :
    Counted config.maxKeepaliveRequests (initial config) [] := by
  have notFull :
      ¬ config.maxKeepaliveRequests ≤ (initial config).requestsProcessed := by
    change ¬ config.maxKeepaliveRequests ≤ 0
    omega
  refine
    { limit := rfl
      tail := nofun
      held := nofun
      returning := nofun
      writeOnTop := nofun
      writing := nofun
      answered := nofun
      responded := fun req responded => ?_
      answeredOnce := List.nodup_nil
      processed := rfl
      headed := nofun
      headedOnce := List.nodup_nil
      full := fun full => (notFull full).elim }
  simp [Responded, initial] at responded

end

/--
Where the response that uses the quota up is given to a request that is alone, no
request is created after it and no head is written twice, the quota is kept.
-/
theorem withinQuota_of_keepsQuota
    {config : ConnectionConfig}
    {labels : List Label}
    {final : Config}
    (ran : run? config labels = some final)
    (keeps : machine.Guarded KeepsQuota (start config) labels) :
    WithinQuota config.maxKeepaliveRequests final.state := by
  intro positive
  have begins :
      Receiving (start config).state (start config).stack ∧
        Counted config.maxKeepaliveRequests (start config).state
          (start config).stack :=
    ⟨receiving_initial config, counted_initial config positive⟩
  exact ((counted_preserved positive).run begins keeps ran).2.withinQuota
    positive

/-- A request arrives, and `request_event` responds. -/
def receivedAndAnswered (req : Nat) : List Label :=
  .input (.onRead [.done {}]) ::
    [.tick, .tick, .ret, .tick, .tick, .ret, .tick,
      .input (.respond req { code := 200 }), .tick, .tick, .tick, .ret, .tick]

/-- Two requests, one after the other, are answered with a quota of two. -/
def answeredInTurn : List Label :=
  receivedAndAnswered 0 ++ ([.ret, .tick, .tick] : List Label) ++
    receivedAndAnswered 1

theorem withinQuota_answeredInTurn :
    ∃ final,
      run? { maxKeepaliveRequests := 2 } answeredInTurn = some final ∧
        final.state.heads.length = 2 ∧ WithinQuota 2 final.state := by
  have ran :
      run? { maxKeepaliveRequests := 2 } answeredInTurn = some _ := rfl
  exact ⟨_, ran, rfl, withinQuota_of_keepsQuota ran (by decide)⟩

/-- Two requests arrive together, and are answered with a quota of one. -/
def answeredTogether : List Label :=
  twoRequests ++
    ([.input (.respond 0 { code := 200 }), .tick, .tick, .tick, .ret, .tick,
      .input (.respond 1 { code := 200 }), .tick] : List Label)

/-- The first response does not end the connection, as two requests are waiting. -/
theorem answeredTogether_not_withinQuota :
    ∃ final,
      run? { maxKeepaliveRequests := 1 } answeredTogether = some final ∧
        ¬ WithinQuota 1 final.state := by
  have ran :
      run? { maxKeepaliveRequests := 1 } answeredTogether = some _ := rfl
  refine ⟨_, ran, fun within => ?_⟩
  have few := (within (by decide)).1
  revert few
  decide

end UniEventHttp.ServerConnection
