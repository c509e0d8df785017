import UniEventHttp.ServerPipeline

namespace UniEventHttp.ServerConnection

/-!
# The order of the responses

A piece of a request is written only when the responses of all earlier requests
are finished.  This holds where no request is read any more once the connection
has been closed or handed over: then every request that leaves the deque with
its response unfinished leaves it together with all requests behind it.
-/

open History

/-- The responses of all earlier requests are finished when the piece is written. -/
def Precedes (earlier : List Piece) (piece : Piece) : Prop :=
  ∀ req < piece.req, ∃ last ∈ earlier, last.req = req ∧ endsBlock last = true

/-- One block for each request, each begun when the ones before it are finished. -/
def InOrder (c : ServerConnection) : Prop :=
  InBlocks c ∧ Each Precedes c.written

/-- The step creates a request object. -/
def createsRequest (config : Config) : Label → Bool
  | .tick =>
      match config.stack with
      | .onRead (_ :: _) :: _ => config.state.parsing.isNone
      | _ => false
  | .input (.onReadError _) =>
      config.state.requests.getLast?.all fun req =>
        (config.state.store req).isDone
  | _ => false

/-- No request is created once the connection has been closed or handed over. -/
def CreatesWhileOpen (config : Config) (label : Label) : Prop :=
  createsRequest config label = true → ¬ config.state.Closed

/-- The condition under which the responses are written in order. -/
def RespondsInTurn (config : Config) (label : Label) : Prop :=
  RespondsOnDelivery config label ∧ CreatesWhileOpen config label

instance (config : Config) (label : Label) :
    Decidable (CreatesWhileOpen config label) :=
  inferInstanceAs (Decidable (_ → _))

instance (config : Config) (label : Label) :
    Decidable (RespondsInTurn config label) :=
  inferInstanceAs (Decidable (_ ∧ _))

/-! ## The invariant -/

def isDropping : Frame → Bool
  | .dropRequests _ _ => true
  | _ => false

/-- `drop_requests` is running. -/
def dropping (stack : List Frame) : Bool :=
  stack.any isDropping

@[simp] theorem dropping_append (above below : List Frame) :
    dropping (above ++ below) = (dropping above || dropping below) := by
  simp [dropping]

@[simp] theorem dropping_cons (frame : Frame) (below : List Frame) :
    dropping (frame :: below) = (isDropping frame || dropping below) := rfl

@[simp] theorem dropping_nil : dropping [] = false := rfl

theorem dropping_of_free
    {stack : List Frame}
    (free : suspended stack = false) :
    dropping stack = false := by
  rw [dropping, List.any_eq_false]
  intro frame member
  rw [suspended, List.any_eq_false] at free
  have notWindow := free frame member
  cases frame <;> simp_all [isWindow, isDropping]

/-- What the written pieces say about finished responses. -/
structure Finishing (c : ServerConnection) : Prop where
  each : Each Precedes c.written
  ended : ∀ req, c.Started req → c.Completed req → c.BlockWritten req

/-- Which requests are finished, in terms of the deque and the stack. -/
structure Ordered (c : ServerConnection) (stack : List Frame) : Prop where
  finishing : Finishing c
  parsed :
    ∀ req, c.parsing = some req → c.Attached req ∨ c.Closed ∨ c.Silent
  attached : ∀ req ∈ c.requests ++ held stack, c.Attached req ∨ c.Closed
  single :
    c.Closed → dropping stack = false → c.requests.length ≤ 1
  returned :
    Frame.finishReturn ∈ stack →
    c.Closed →
    dropping stack = false →
    c.requests = []
  writing :
    stack.head? = some .writeNextResponse →
    ∀ req ∈ c.requests.head?, c.Attached req
  front :
    dropping stack = false →
    (Frame.finishReturn ∈ stack → c.closing = false) →
    ∀ req ∈ c.requests.head?,
      c.Attached req → ∀ other < req, c.BlockWritten other
  heldFront : ∀ req ∈ held stack, ∀ other < req, c.BlockWritten other
  heldClosing : held stack ≠ [] → c.closing = true
  fresh :
    ¬ c.Closed →
    dropping stack = false →
    c.closing = false →
    ∀ other < c.nextId, other ∈ c.requests ∨ c.BlockWritten other
  closes :
    ∀ error soft, Frame.dropRequests error (.doClose soft) ∈ stack → c.Closed
  ends :
    c.closing = true →
    ¬ c.Closed →
    suspended stack = false →
    c.requests ≠ []

/-- The invariant where nothing is suspended. -/
theorem Ordered.free
    {c : ServerConnection}
    {stack : List Frame}
    (finishing : Finishing c)
    (parsed :
      ∀ req, c.parsing = some req → c.Attached req ∨ c.Closed ∨ c.Silent)
    (attached : ∀ req ∈ c.requests, c.Attached req ∨ c.Closed)
    (single : c.Closed → c.requests.length ≤ 1)
    (front :
      ∀ req ∈ c.requests.head?,
        c.Attached req → ∀ other < req, c.BlockWritten other)
    (fresh :
      ¬ c.Closed →
      c.closing = false →
      ∀ other < c.nextId, other ∈ c.requests ∨ c.BlockWritten other)
    (ends : c.closing = true → ¬ c.Closed → c.requests ≠ [])
    (free : suspended stack = false)
    (notWriting : Frame.writeNextResponse ∉ stack) :
    Ordered c stack where
  finishing := finishing
  parsed := parsed
  attached := by
    rw [noneHeld_of_free free, List.append_nil]
    exact attached
  single closed _ := single closed
  returned member := (noReturn_of_free free member).elim
  writing isHead := (notWriting (List.mem_of_mem_head? isHead)).elim
  front _ _ := front
  heldFront := by simp [noneHeld_of_free free]
  heldClosing := by simp [noneHeld_of_free free]
  fresh opened _ := fresh opened
  closes error soft member := by
    have isSuspended : suspended stack = true := by
      simp only [suspended, List.any_eq_true]
      exact ⟨_, member, rfl⟩
    simp [free] at isSuspended
  ends closing opened _ := ends closing opened

/-! ## Steps that finish nothing -/

/-- The second state has the requests, the pieces and the flags of the first. -/
structure SameOrder (c next : ServerConnection) : Prop where
  requests : next.requests = c.requests
  nextId : next.nextId = c.nextId
  written : next.written = c.written
  attached : ∀ req, next.Attached req ↔ c.Attached req
  completed : ∀ req, c.Started req → next.Completed req → c.Completed req
  closing : next.closing = c.closing
  parsing : next.parsing = c.parsing
  silent : c.Silent → next.Silent
  closed : next.Closed ↔ c.Closed

namespace SameOrder

theorem of_pieces
    {c next : ServerConnection}
    (pieces : SamePieces c next)
    (closing : next.closing = c.closing)
    (parsing : next.parsing = c.parsing)
    (silent : c.Silent → next.Silent)
    (closed : next.Closed ↔ c.Closed) :
    SameOrder c next :=
  ⟨pieces.requests, pieces.nextId, pieces.written, pieces.attached,
    fun req _ => (pieces.completed req).mp, closing, parsing, silent, closed⟩

theorem refl (c : ServerConnection) : SameOrder c c :=
  of_pieces (SamePieces.refl c) rfl rfl id Iff.rfl

theorem started
    {c next : ServerConnection}
    (same : SameOrder c next)
    (req : Nat) :
    next.Started req ↔ c.Started req := by
  simp [Started, same.written]

theorem trans
    {first second third : ServerConnection}
    (one : SameOrder first second)
    (two : SameOrder second third) :
    SameOrder first third where
  requests := two.requests.trans one.requests
  nextId := two.nextId.trans one.nextId
  written := two.written.trans one.written
  attached req := (two.attached req).trans (one.attached req)
  completed req started completed :=
    one.completed req started
      (two.completed req ((one.started req).mpr started) completed)
  closing := two.closing.trans one.closing
  parsing := two.parsing.trans one.parsing
  silent silent := two.silent (one.silent silent)
  closed := two.closed.trans one.closed

theorem emit
    (c : ServerConnection)
    {event : Event}
    (noPiece : piece? event = none)
    (noEnd : isEnd event = false) :
    SameOrder c (c.emit event) :=
  of_pieces (SamePieces.emit c noPiece) rfl rfl id (by simp [noEnd])

theorem of_plain
    {c next : ServerConnection}
    (plain : Plain c next)
    (closed : next.Closed → c.Closed) :
    SameOrder c next := by
  refine of_pieces (SamePieces.of_plain plain) plain.closing plain.parsing
    plain.silent ⟨closed, ?_⟩
  intro wasClosed
  obtain ⟨events, trace, _⟩ := plain.trace
  unfold Closed at wasClosed ⊢
  rw [trace, List.any_append, wasClosed, Bool.true_or]

theorem setRequest
    (c : ServerConnection)
    (req : Nat)
    (request : ServerRequest)
    (connection : request.connection = (c.store req).connection)
    (response : request.response = (c.store req).response)
    (isDone : request.isDone = (c.store req).isDone) :
    SameOrder c (c.setRequest req request) :=
  of_pieces (SamePieces.setRequest c req request connection response isDone)
    rfl rfl id Iff.rfl

theorem setResponse
    (c : ServerConnection)
    (req : Nat)
    {stored response : ServerResponse}
    (isStored : (c.store req).response = some stored)
    (completed : response.completed = stored.completed) :
    SameOrder c (c.setResponse req response) :=
  of_pieces (SamePieces.setResponse c req isStored completed) rfl rfl id
    Iff.rfl

theorem blockWritten
    {c next : ServerConnection}
    (same : SameOrder c next)
    (req : Nat) :
    next.BlockWritten req ↔ c.BlockWritten req := by
  simp [BlockWritten, same.written]

theorem finishing
    {c next : ServerConnection}
    (same : SameOrder c next)
    (finishing : Finishing c) :
    Finishing next where
  each := by
    rw [same.written]
    exact finishing.each
  ended req started completed := by
    have wasStarted := (same.started req).mp started
    rw [same.blockWritten]
    exact finishing.ended req wasStarted
      (same.completed req wasStarted completed)

end SameOrder

/-- The invariant is kept where requests, pieces and flags stay as they are. -/
theorem Ordered.replace
    {c next : ServerConnection}
    {frames rest : List Frame}
    (top : List Frame)
    (ordered : Ordered c (top ++ rest))
    (same : SameOrder c next)
    (topInner : ∀ frame ∈ top, isInner frame = true)
    (topReturn : Frame.finishReturn ∉ top)
    (topWindows : suspended top = false ∨ c.requests = [] ∧ c.Closed)
    (inner : ∀ frame ∈ frames, isInner frame = true)
    (noWindow : suspended frames = false)
    (writing :
      (frames ++ rest).head? = some .writeNextResponse →
      ∀ req ∈ c.requests.head?, c.Attached req) :
    Ordered next (frames ++ rest) := by
  have sameHeld : held (frames ++ rest) = held (top ++ rest) := by
    rw [held_inner inner, held_inner topInner]
  have returns :
      Frame.finishReturn ∈ frames ++ rest ↔
        Frame.finishReturn ∈ top ++ rest := by
    have noReturn := noReturn_of_free noWindow
    simp [noReturn, topReturn]
  -- the operation on top has come to its end
  have undropped :
      dropping (frames ++ rest) = false →
      dropping (top ++ rest) = false ∨ c.requests = [] ∧ c.Closed := by
    intro notDropping
    simp only [dropping_append, Bool.or_eq_false_iff] at notDropping ⊢
    exact topWindows.imp_left
      fun topFree => ⟨dropping_of_free topFree, notDropping.2⟩
  refine
    { finishing := same.finishing ordered.finishing
      parsed := ?_
      attached := ?_
      single := ?_
      returned := ?_
      writing := ?_
      front := ?_
      heldFront := ?_
      heldClosing := ?_
      fresh := ?_
      closes := ?_
      ends := ?_ }
  · intro req parsing
    rw [same.parsing] at parsing
    rw [same.attached, same.closed]
    exact (ordered.parsed req parsing).imp_right (Or.imp_right same.silent)
  · intro req member
    rw [same.requests, sameHeld] at member
    rw [same.attached, same.closed]
    exact ordered.attached req member
  · intro closed notDropping
    rw [same.requests]
    rcases undropped notDropping with wasNot | ⟨empty, _⟩
    · exact ordered.single (same.closed.mp closed) wasNot
    · simp [empty]
  · intro member closed notDropping
    rw [same.requests]
    rcases undropped notDropping with wasNot | ⟨empty, _⟩
    · exact ordered.returned (returns.mp member) (same.closed.mp closed) wasNot
    · exact empty
  · intro isHead req first
    rw [same.requests] at first
    rw [same.attached]
    exact writing isHead req first
  · intro notDropping goesOn req first isAttached other less
    rw [same.requests] at first
    rw [same.blockWritten]
    rcases undropped notDropping with wasNot | ⟨empty, _⟩
    · refine ordered.front wasNot ?_ req first
        ((same.attached req).mp isAttached) other less
      intro member
      rw [← same.closing]
      exact goesOn (returns.mpr member)
    · simp [empty] at first
  · intro req member other less
    rw [sameHeld] at member
    rw [same.blockWritten]
    exact ordered.heldFront req member other less
  · rw [sameHeld, same.closing]
    exact ordered.heldClosing
  · intro opened notDropping notClosing other less
    rw [same.closed] at opened
    rw [same.closing] at notClosing
    rw [same.nextId] at less
    rw [same.requests, same.blockWritten]
    rcases undropped notDropping with wasNot | ⟨_, closed⟩
    · exact ordered.fresh opened wasNot notClosing other less
    · exact (opened closed).elim
  · intro error soft member
    rw [same.closed]
    apply ordered.closes error soft
    rcases List.mem_append.mp member with inFrames | inRest
    · rw [suspended, List.any_eq_false] at noWindow
      simpa [isWindow] using noWindow _ inFrames
    · exact List.mem_append_right _ inRest
  · intro closing opened free
    rw [same.closing] at closing
    rw [same.closed] at opened
    rw [same.requests]
    rcases topWindows with topFree | ⟨_, closed⟩
    · apply ordered.ends closing opened
      simp only [suspended_append, Bool.or_eq_false_iff] at free ⊢
      exact ⟨topFree, free.2⟩
    · exact (opened closed).elim

/-- A call that finishes nothing. -/
theorem Ordered.calls
    {c next : ServerConnection}
    {stack : List Frame}
    (ordered : Ordered c stack)
    (same : SameOrder c next)
    (notWriting : Frame.writeNextResponse ∉ stack) :
    Ordered next stack := by
  have replaced : Ordered next ([] ++ stack) :=
    ordered.replace [] same (by simp) (by simp) (Or.inl rfl) (by simp) rfl
      fun isHead => (notWriting (List.mem_of_mem_head? isHead)).elim
  exact replaced

/-- `do_close` may be called at any time. -/
theorem Ordered.doClose
    {c next : ServerConnection}
    {error : Option ErrorCode}
    {soft : Bool}
    {stack below frames : List Frame}
    (ordered : Ordered c stack)
    (sameHeld : held below = held stack)
    (executed : c.doClose error soft = .next next frames) :
    Ordered next (frames ++ below) := by
  have plain := plain_doClose c error soft
  rw [executed] at plain
  have pieces := SamePieces.of_plain plain.1
  have blockWritten :
      ∀ req, next.BlockWritten req ↔ c.BlockWritten req := by
    simp [BlockWritten, pieces.written]
  obtain ⟨closed, rfl⟩ := doClose_next executed
  have newHeld :
      held ([.dropRequests error (.doClose soft)] ++ below) = held stack := by
    rw [held_inner (by simp [isInner]), sameHeld]
  refine
    { finishing := ?_
      parsed := fun _ _ => Or.inr (Or.inl closed)
      attached := fun _ _ => Or.inr closed
      single := by simp [isDropping]
      returned := by simp [isDropping]
      writing := by simp
      front := by simp [isDropping]
      heldFront := ?_
      heldClosing := ?_
      fresh := fun opened => (opened closed).elim
      closes := fun _ _ _ => closed
      ends := fun _ opened => (opened closed).elim }
  · refine ⟨?_, ?_⟩
    · rw [pieces.written]
      exact ordered.finishing.each
    · intro req started completed
      rw [blockWritten]
      exact ordered.finishing.ended req ((pieces.started req).mp started)
        ((pieces.completed req).mp completed)
  · intro req member other less
    rw [newHeld] at member
    rw [blockWritten]
    exact ordered.heldFront req member other less
  · rw [newHeld, plain.1.closing]
    exact ordered.heldClosing

/-! ## Responding and writing -/

theorem Ordered.respond
    {c next : ServerConnection}
    {req : Nat}
    {response : ServerResponse}
    {frames rest : List Frame}
    (top : List Frame)
    (logged : Logged c)
    (ordered : Ordered c (top ++ rest))
    (topInner : ∀ frame ∈ top, isInner frame = true)
    (topWindows : suspended top = false)
    (restNotWriting : Frame.writeNextResponse ∉ rest)
    (executed : c.respond req response = .next next frames) :
    Ordered next (frames ++ rest) := by
  obtain ⟨isAttached, unanswered, rfl, front, others, shape, outcome⟩ :=
    respond_next executed
  have kept := Kept.takeResponse c req response
  have same : SameOrder c (c.takeResponse req response) := by
    refine ⟨rfl, rfl, ?_, kept.attached, ?_, rfl, rfl, kept.silent, ?_⟩
    · simp [takeResponse, written, emit, setResponse, setRequest, piece?]
    · intro other started completed
      have different : other ≠ req := by
        rintro rfl
        exact unanswered (logged.started other started)
      simpa [Completed, takeResponse, emit, setResponse, setRequest,
        different] using completed
    · simp [takeResponse, Closed, emit, setResponse, setRequest, isEnd]
  have topReturn := noReturn_of_free topWindows
  rcases outcome with ⟨isFront, rfl⟩ | ⟨_, rfl⟩
  · refine ordered.replace top same topInner topReturn (Or.inl topWindows)
      (by simp [isInner]) rfl ?_
    intro _ other first
    have isReq : other = req := by
      rw [← isFront]
      simpa [shape, eq_comm] using first
    rwa [isReq]
  · exact ordered.replace top same topInner topReturn (Or.inl topWindows)
      (by simp) rfl
      fun isHead => (restNotWriting (List.mem_of_mem_head? isHead)).elim

/-- A piece is written when all earlier responses are finished. -/
theorem Finishing.write
    {c : ServerConnection}
    {piece : Piece}
    (finishing : Finishing c)
    (before : ∀ other < piece.req, c.BlockWritten other)
    (ends :
      ∀ response,
        piece = .head piece.req response →
        c.Completed piece.req →
        endsBlock piece = true) :
    Finishing (c.write piece) where
  each := by
    rw [written_write]
    exact each_snoc.mpr ⟨finishing.each, before⟩
  ended req started completed := by
    rw [blockWritten_write]
    rcases (started_write c req piece).mp started with
      wasStarted | ⟨response, isHead⟩
    · exact Or.inl (finishing.ended req wasStarted completed)
    · have isReq : piece.req = req := by
        rw [isHead, Piece.req]
      refine Or.inr ⟨isReq, ?_⟩
      rw [← isReq] at isHead completed
      exact ends response isHead completed

theorem Finishing.writeChunks
    {c : ServerConnection}
    (req : Nat)
    (chunks : List Data)
    (finishing : Finishing c)
    (before : ∀ other < req, c.BlockWritten other) :
    Finishing (c.writeChunks req chunks) := by
  induction chunks generalizing c with
  | nil =>
      exact finishing
  | cons data rest inductionHypothesis =>
      have beforeChunk :
          ∀ other < (Piece.chunk req data).req, c.BlockWritten other := before
      have wrote : Finishing (c.write (.chunk req data)) :=
        finishing.write beforeChunk (by simp)
      exact inductionHypothesis wrote
        fun other less =>
          (blockWritten_write _ _ _).mpr (Or.inl (before other less))

/-- The head of a response is written when all earlier responses are finished. -/
theorem Finishing.writeHead
    {c : ServerConnection}
    {req : Nat}
    {response : ServerResponse}
    (finishing : Finishing c)
    (before : ∀ other < req, c.BlockWritten other)
    (notStarted : ¬ c.Started req) :
    Finishing (c.writeHead req response) := by
  have prepared : Finishing (c.setResponse req response) := by
    refine ⟨finishing.each, ?_⟩
    intro other started completed
    have wasStarted : c.Started other := started
    have different : other ≠ req := fun same => notStarted (same ▸ wasStarted)
    refine finishing.ended other wasStarted ?_
    simpa [Completed, different] using completed
  have beforeHead :
      ∀ other < (Piece.head req response).req,
        (c.setResponse req response).BlockWritten other := before
  refine prepared.write beforeHead ?_
  intro _ _ completed
  simpa [Completed, Piece.req, endsBlock,
    ServerRequest.responseCompleted] using completed

theorem blockWritten_mono
    {c next : ServerConnection}
    {pieces : List Piece}
    (written : next.written = c.written ++ pieces)
    {req : Nat}
    (block : c.BlockWritten req) :
    next.BlockWritten req := by
  obtain ⟨piece, member, ends⟩ := block
  exact ⟨piece, by rw [written]; exact List.mem_append_left _ member, ends⟩

/-- The second state has written more for the requests of the first. -/
structure Progress
    (c next : ServerConnection)
    (pieces : List Piece) : Prop where
  kept : Kept c next
  written : next.written = c.written ++ pieces
  closed : next.Closed ↔ c.Closed
  closing : next.closing = c.closing ∨ c.requests ≠ [] ∧ next.closing = true

theorem Progress.refl (c : ServerConnection) : Progress c c [] :=
  ⟨Kept.refl c, (List.append_nil _).symm, Iff.rfl, Or.inl rfl⟩

/-- Where nothing is suspended, writing for the first request keeps the invariant. -/
theorem Ordered.progress
    {c next : ServerConnection}
    {pieces : List Piece}
    {stack other : List Frame}
    (ordered : Ordered c stack)
    (finishing : Finishing next)
    (progress : Progress c next pieces)
    (wasFree : suspended stack = false)
    (free : suspended other = false)
    (notWriting : Frame.writeNextResponse ∉ other) :
    Ordered next other := by
  have kept := progress.kept
  have notDropping := dropping_of_free wasFree
  have noReturn := noReturn_of_free wasFree
  refine Ordered.free finishing ?_ ?_ ?_ ?_ ?_ ?_ free notWriting
  · intro req parsing
    rw [kept.parsing] at parsing
    rw [kept.attached, progress.closed]
    exact (ordered.parsed req parsing).imp_right (Or.imp_right kept.silent)
  · intro req member
    rw [kept.requests] at member
    rw [kept.attached, progress.closed]
    exact ordered.attached req (List.mem_append_left _ member)
  · rw [progress.closed, kept.requests]
    exact fun closed => ordered.single closed notDropping
  · intro req first isAttached earlier less
    rw [kept.requests] at first
    exact blockWritten_mono progress.written
      (ordered.front notDropping (fun member => (noReturn member).elim) req
        first ((kept.attached req).mp isAttached) earlier less)
  · intro opened notClosing earlier less
    rw [progress.closed] at opened
    rw [kept.nextId] at less
    rw [kept.requests]
    have wasNotClosing : c.closing = false := by
      rcases progress.closing with same | ⟨_, isClosing⟩
      · rwa [same] at notClosing
      · simp [isClosing] at notClosing
    exact (ordered.fresh opened notDropping wasNotClosing earlier less).imp_right
      (blockWritten_mono progress.written)
  · intro closing opened
    rw [progress.closed] at opened
    rw [kept.requests]
    rcases progress.closing with same | ⟨nonempty, _⟩
    · exact ordered.ends (same ▸ closing) opened wasFree
    · exact nonempty

theorem Progress.startClosing
    {c next : ServerConnection}
    {pieces : List Piece}
    (req : Nat)
    (progress : Progress c next pieces)
    (nonempty : c.requests ≠ []) :
    Progress c (next.startClosing req) pieces := by
  have closing :
      (next.startClosing req).closing = true ∧
        (next.startClosing req).written = next.written ∧
          ((next.startClosing req).Closed ↔ next.Closed) := by
    simp only [ServerConnection.startClosing]
    split
    · simp [readIgnore, ServerConnection.written, Closed, piece?, isEnd]
    · exact ⟨rfl, rfl, Iff.rfl⟩
  exact
    { kept := progress.kept.trans (Kept.startClosing next req)
      written := closing.2.1.trans progress.written
      closed := closing.2.2.trans progress.closed
      closing := Or.inr ⟨nonempty, closing.1⟩ }

theorem Progress.writeChunks
    {c next : ServerConnection}
    {pieces : List Piece}
    (progress : Progress c next pieces)
    (req : Nat)
    (chunks : List Data) :
    Progress c (next.writeChunks req chunks)
      (pieces ++ chunks.map (.chunk req)) := by
  have same :
      (next.writeChunks req chunks).closing = next.closing ∧
        ((next.writeChunks req chunks).Closed ↔ next.Closed) := by
    clear progress
    induction chunks generalizing next with
    | nil =>
        exact ⟨rfl, Iff.rfl⟩
    | cons data rest inductionHypothesis =>
        obtain ⟨closing, closed⟩ :=
          @inductionHypothesis (next.write (.chunk req data))
        exact ⟨closing, closed.trans (closed_write next _)⟩
  refine
    { kept := progress.kept.trans (Kept.writeChunks next req chunks)
      written := ?_
      closed := same.2.trans progress.closed
      closing := ?_ }
  · rw [written_writeChunks, progress.written, List.append_assoc]
  · rw [same.1]
    exact progress.closing

theorem progress_writeHead
    (c : ServerConnection)
    (req : Nat)
    (response : ServerResponse) :
    Progress c (c.writeHead req response) [.head req response] where
  kept := Kept.writeHead c req response
  written := by
    unfold ServerConnection.writeHead
    rw [written_write]
    rfl
  closed := by
    unfold ServerConnection.writeHead
    rw [closed_write]
    rfl
  closing := Or.inl rfl

theorem Finishing.startClosing
    {c : ServerConnection}
    (finishing : Finishing c)
    (req : Nat) :
    Finishing (c.startClosing req) := by
  have written : (c.startClosing req).written = c.written := by
    simp only [ServerConnection.startClosing]
    split
    · simp [readIgnore, ServerConnection.written, piece?]
    · rfl
  refine ⟨by rw [written]; exact finishing.each, ?_⟩
  intro other started completed
  rw [Started, written] at started
  rw [Completed, store_startClosing] at completed
  rw [BlockWritten, written]
  exact finishing.ended other started completed

theorem Ordered.writeNextResponse
    {c next : ServerConnection}
    {rest frames : List Frame}
    (layered : Layered (.writeNextResponse :: rest))
    (pipelined : Pipelined c (.writeNextResponse :: rest))
    (ordered : Ordered c (.writeNextResponse :: rest))
    (executed : c.writeNextResponse = .next next frames) :
    Ordered next (frames ++ rest) := by
  have restFree : suspended rest = false := layered.not_suspended rfl
  have restNotWriting : Frame.writeNextResponse ∉ rest := layered.writeOnTop
  have wasFree : suspended (.writeNextResponse :: rest) = false := by
    simp [isWindow, restFree]
  obtain ⟨req, others, given, shape, stored, outcome⟩ :=
    writeNextResponse_next executed
  have nonempty : c.requests ≠ [] := by simp [shape]
  have first : req ∈ c.requests.head? := by simp [shape]
  have before : ∀ other < req, c.BlockWritten other :=
    ordered.front (dropping_of_free wasFree)
      (fun member => (noReturn_of_free wasFree member).elim) req first
      (ordered.writing rfl req first)
  have notStarted : ¬ c.Started req := pipelined.writing rfl req first
  have headFinishing :
      Finishing (c.writeHead req (c.prepared given).withoutTmpChunks) :=
    ordered.finishing.writeHead before notStarted
  have headProgress :=
    progress_writeHead c req (c.prepared given).withoutTmpChunks
  have headed :
      ∀ middle,
        WritesHead c req others (c.prepared given).withoutTmpChunks middle →
        Finishing middle ∧
          Progress c middle [.head req (c.prepared given).withoutTmpChunks] := by
    intro middle writes
    cases writes with
    | keepAlive _ _ =>
        exact ⟨headFinishing, headProgress⟩
    | closing _ =>
        exact ⟨headFinishing.startClosing req,
          headProgress.startClosing req nonempty⟩
  cases outcome with
  | finish writes _ =>
      obtain ⟨finishing, progress⟩ := headed _ writes
      exact ordered.progress finishing progress wasFree
        (by simp [isWindow, restFree]) (by simpa using restNotWriting)
  | flush writes _ =>
      obtain ⟨finishing, progress⟩ := headed _ writes
      have chunked :=
        finishing.writeChunks req (c.prepared given).tmpChunks
          fun other less => blockWritten_mono progress.written (before other less)
      exact ordered.progress chunked
        (progress.writeChunks req (c.prepared given).tmpChunks) wasFree
        (by simpa using restFree) (by simpa using restNotWriting)
  | hold behind =>
      have finishing := headFinishing.startClosing req
      have progress := headProgress.startClosing req nonempty
      have closing :
          ((c.writeHead req (c.prepared given).withoutTmpChunks).startClosing
            req).closing = true := by
        simp only [ServerConnection.startClosing]
        split <;> rfl
      have newHeld :
          held (.dropRequests (some (.http .pipelineCanceled))
              (.writeNextResponse req (c.prepared given).tmpChunks) :: rest) =
            [req] := by
        have noneHeld := noneHeld_of_free restFree
        simp only [held] at noneHeld
        simp [held, held?, noneHeld]
      have noReturn := noReturn_of_free restFree
      refine
        { finishing := ⟨finishing.each, finishing.ended⟩
          parsed := ?_
          attached := ?_
          single := by simp [isDropping]
          returned := by simp [isDropping]
          writing := by simp
          front := by simp [isDropping]
          heldFront := ?_
          heldClosing := fun _ => closing
          fresh := by simp [isDropping]
          closes := ?_
          ends := by simp [isWindow] }
      · intro other parsing
        have wasParsing : c.parsing = some other :=
          progress.kept.parsing.symm.trans parsing
        rcases ordered.parsed other wasParsing with
          isAttached | closed | silent
        · exact Or.inl ((progress.kept.attached other).mpr isAttached)
        · exact Or.inr (Or.inl (progress.closed.mpr closed))
        · exact Or.inr (Or.inr (progress.kept.silent silent))
      · intro other member
        rw [List.cons_append, List.nil_append, newHeld] at member
        have wasMember : other ∈ c.requests := by
          rw [shape]
          rcases List.mem_append.mp member with isBehind | isHeld
          · exact List.mem_cons_of_mem _ isBehind
          · simp only [List.mem_singleton] at isHeld
            simp [isHeld]
        exact (ordered.attached other (List.mem_append_left _ wasMember)).imp
          (progress.kept.attached other).mpr progress.closed.mpr
      · intro other member earlier less
        rw [List.cons_append, List.nil_append, newHeld] at member
        simp only [List.mem_singleton] at member
        rw [member] at less
        exact blockWritten_mono progress.written (before earlier less)
      · intro error soft member
        have inRest : Frame.dropRequests error (.doClose soft) ∈ rest := by
          simpa using member
        exact progress.closed.mpr
          (ordered.closes error soft (List.mem_cons_of_mem _ inRest))

/-! ## Leaving the deque -/

theorem attached_cleanupRequest
    (c : ServerConnection)
    (req : Nat)
    (rest : List Nat)
    (other : Nat) :
    (c.cleanupRequest req rest).Attached other ↔
      other ≠ req ∧ c.Attached other := by
  by_cases same : other = req <;>
    simp [Attached, cleanupRequest, emit, setRequest, same]

theorem Finishing.cleanup
    {c : ServerConnection}
    (finishing : Finishing c)
    (logged : Logged c)
    (req : Nat)
    (rest : List Nat) :
    Finishing (c.cleanupRequest req rest) ∧
      (c.cleanupRequest req rest).written = c.written := by
  obtain ⟨_, written⟩ := logged.cleanup req rest
  refine ⟨⟨by rw [written]; exact finishing.each, ?_⟩, written⟩
  intro other started completed
  rw [Started, written] at started
  rw [BlockWritten, written]
  refine finishing.ended other started ?_
  by_cases same : other = req
  · simpa [Completed, cleanupRequest, emit, setRequest, same,
      ServerRequest.responseCompleted] using completed
  · simpa [Completed, cleanupRequest, emit, setRequest, same] using completed

theorem Ordered.finishRequest
    {c next : ServerConnection}
    {rest frames : List Frame}
    (receiving : Receiving c (.finishRequest :: rest))
    (layered : Layered (.finishRequest :: rest))
    (pipelined : Pipelined c (.finishRequest :: rest))
    (ordered : Ordered c (.finishRequest :: rest))
    (executed : c.finishRequest = .next next frames) :
    Ordered next (frames ++ rest) := by
  have restFree : suspended rest = false := layered.not_suspended rfl
  have restNotWriting : Frame.writeNextResponse ∉ rest := layered.writeOnTop
  have wasFree : suspended (.finishRequest :: rest) = false := by
    simp [isWindow, restFree]
  have notDropping := dropping_of_free wasFree
  have noneHeld : held (.finishRequest :: rest) = [] :=
    noneHeld_of_free wasFree
  obtain ⟨req, others, shape, completed, ⟨_, rfl, rfl⟩ | ⟨done, rfl, rfl⟩⟩ :=
    finishRequest_next executed
  · exact ordered.replace [_] (SameOrder.setRequest c req _ rfl rfl rfl)
      (by simp [isInner]) (by simp) (Or.inl rfl) (by simp) rfl
      fun isHead => (restNotWriting (List.mem_of_mem_head? isHead)).elim
  · obtain ⟨finishing, written⟩ :=
      ordered.finishing.cleanup pipelined.logged req others
    have block :
        ∀ other,
          (c.cleanupRequest req others).BlockWritten other ↔
            c.BlockWritten other := by
      simp [BlockWritten, written]
    have closed :
        (c.cleanupRequest req others).Closed ↔ c.Closed := by
      simp [cleanupRequest, isEnd, Closed, setRequest, emit]
    have nextId : (c.cleanupRequest req others).nextId = c.nextId := rfl
    have first : req ∈ c.requests.head? := by simp [shape]
    -- the response of an attached first request has been written to its end
    have finished : ¬ c.Closed → c.BlockWritten req := by
      intro opened
      have isAttached : c.Attached req :=
        (ordered.attached req
          (List.mem_append_left _ (by simp [shape]))).resolve_right opened
      have responded : c.Responded req := by
        unfold Completed ServerRequest.responseCompleted at completed
        unfold Responded
        cases stored : (c.store req).response with
        | none =>
            simp [stored] at completed
        | some response =>
            rfl
      exact ordered.finishing.ended req
        (pipelined.waiting wasFree (by simp) req first isAttached responded)
        completed
    have alone : c.Closed → others = [] := by
      intro isClosed
      have few := ordered.single isClosed notDropping
      rw [shape] at few
      apply List.eq_nil_of_length_eq_zero
      simpa using few
    have newHeld :
        held ([.fire (.finishEvent req), .finishReturn] ++ rest) = [] := by
      rw [held_inner (by simp [isInner])]
      exact noneHeld_of_free restFree
    have stays :
        ∀ other < c.nextId,
          other ∈ c.requests ∨ c.BlockWritten other →
          ¬ c.Closed →
          other ∈ others ∨ c.BlockWritten other := by
      intro other _ was opened
      rcases was with inDeque | isWritten
      · rw [shape] at inDeque
        rcases List.mem_cons.mp inDeque with same | behind
        · exact Or.inr (same ▸ finished opened)
        · exact Or.inl behind
      · exact Or.inr isWritten
    refine
      { finishing := finishing
        parsed := ?_
        attached := ?_
        single := ?_
        returned := ?_
        writing := by simp
        front := ?_
        heldFront := by
          rw [newHeld]
          simp
        heldClosing := by
          rw [newHeld]
          simp
        fresh := ?_
        closes := ?_
        ends := by simp [isWindow] }
    · intro other parsing
      have wasParsing : c.parsing = some other := parsing
      by_cases same : other = req
      · rw [same] at wasParsing
        exact Or.inr (Or.inr (receiving.parsingDone req wasParsing done))
      · rw [attached_cleanupRequest, closed]
        exact (ordered.parsed other wasParsing).imp_left fun was => ⟨same, was⟩
    · intro other member
      rw [newHeld, List.append_nil] at member
      rw [attached_cleanupRequest, closed]
      have inDeque : other ∈ c.requests := by
        rw [shape]
        exact List.mem_cons_of_mem _ member
      have different : other ≠ req := by
        have sorted := receiving.sorted
        rw [shape] at sorted
        have := (List.pairwise_cons.mp sorted).1 other member
        omega
      exact (ordered.attached other (List.mem_append_left _ inDeque)).imp_left
        fun was => ⟨different, was⟩
    · rw [closed]
      intro isClosed _
      simp [cleanupRequest, emit, setRequest, alone isClosed]
    · rw [closed]
      intro _ isClosed _
      exact alone isClosed
    · intro _ goesOn other isFirst _ earlier less
      have notClosing : c.closing = false := goesOn (by simp)
      have behind : other ∈ others := List.mem_of_mem_head? isFirst
      rw [block]
      by_cases isClosed : c.Closed
      · simp [alone isClosed] at behind
      · have inDeque : other ∈ c.requests := by
          rw [shape]
          exact List.mem_cons_of_mem _ behind
        have below : earlier < c.nextId := by
          have := receiving.requestsBelow other inDeque
          omega
        rcases stays earlier below
          (ordered.fresh isClosed notDropping notClosing earlier below)
          isClosed with stillBehind | isWritten
        · -- the new first request is the least one
          have sorted := receiving.sorted
          rw [shape] at sorted
          obtain ⟨last, tail, rfl⟩ :=
            List.exists_cons_of_ne_nil (List.ne_nil_of_mem behind)
          have isLast : other = last := by
            have isHead : some last = some other := isFirst
            exact (Option.some.inj isHead).symm
          have tailSorted :=
            (List.pairwise_cons.mp (List.pairwise_cons.mp sorted).2).1
          rcases List.mem_cons.mp stillBehind with same | inTail
          · omega
          · have := tailSorted earlier inTail
            omega
        · exact isWritten
    · rw [closed, nextId]
      intro opened _ notClosing other below
      rw [block]
      exact stays other below
        (ordered.fresh opened notDropping notClosing other below) opened
    · intro error soft member
      have inRest : Frame.dropRequests error (.doClose soft) ∈ rest := by
        simpa using member
      exact closed.mpr
        (ordered.closes error soft (List.mem_cons_of_mem _ inRest))

theorem Ordered.finishReturn
    {c next : ServerConnection}
    {rest frames : List Frame}
    (layered : Layered (.finishReturn :: rest))
    (ordered : Ordered c (.finishReturn :: rest))
    (executed : c.finishReturn = .next next frames) :
    Ordered next (frames ++ rest) := by
  have restFree : suspended rest = false := layered.not_suspended rfl
  have restNotWriting : Frame.writeNextResponse ∉ rest := layered.writeOnTop
  have noReturn := noReturn_of_free restFree
  have noneHeld := noneHeld_of_free restFree
  have notDropping : dropping (.finishReturn :: rest) = false := by
    simp [isDropping, dropping_of_free restFree]
  -- the frame of `finish_request` is gone
  have settle :
      ∀ frames,
        SameOrder c next →
        c.closing = false →
        suspended frames = false →
        Ordered next (frames ++ rest) := by
    intro frames same notClosing free
    have framesHeld : held (frames ++ rest) = [] := by
      rw [held, List.filterMap_append]
      change held frames ++ held rest = []
      rw [noneHeld_of_free free, noneHeld, List.append_nil]
    have allFree : suspended (frames ++ rest) = false := by
      simp [free, restFree]
    refine
      { finishing := same.finishing ordered.finishing
        parsed := ?_
        attached := ?_
        single := ?_
        returned := fun member => (noReturn_of_free allFree member).elim
        writing := ?_
        front := ?_
        heldFront := by simp [framesHeld]
        heldClosing := by simp [framesHeld]
        fresh := ?_
        closes := ?_
        ends := ?_ }
    · intro req parsing
      rw [same.parsing] at parsing
      rw [same.attached, same.closed]
      exact (ordered.parsed req parsing).imp_right (Or.imp_right same.silent)
    · intro req member
      rw [same.requests, framesHeld, List.append_nil] at member
      rw [same.attached, same.closed]
      exact ordered.attached req (List.mem_append_left _ member)
    · rw [same.closed, same.requests]
      exact fun closed _ => ordered.single closed notDropping
    · intro _ req first
      rw [same.requests] at first
      rw [same.attached]
      refine (ordered.attached req (List.mem_append_left _
        (List.mem_of_mem_head? first))).resolve_right ?_
      intro closed
      have empty := ordered.returned (by simp) closed notDropping
      simp [empty] at first
    · intro _ _ req first isAttached other less
      rw [same.requests] at first
      rw [same.blockWritten]
      exact ordered.front notDropping (fun _ => notClosing) req first
        ((same.attached req).mp isAttached) other less
    · intro opened _ _ other below
      rw [same.closed] at opened
      rw [same.nextId] at below
      rw [same.requests, same.blockWritten]
      exact ordered.fresh opened notDropping notClosing other below
    · intro error soft member
      have isSuspended : suspended (frames ++ rest) = true := by
        simp only [suspended, List.any_eq_true]
        exact ⟨_, member, rfl⟩
      simp [allFree] at isSuspended
    · intro closing
      rw [same.closing, notClosing] at closing
      cases closing
  rcases finishReturn_next executed with
    ⟨_, closed⟩ | ⟨notClosing, _, ⟨plain, trace, rfl, _⟩ | ⟨rfl, rfl, _⟩⟩
  · exact ordered.doClose rfl closed
  · have same : SameOrder c next :=
      SameOrder.of_plain plain (by simp [Closed, trace])
    exact settle [] same notClosing rfl
  · exact settle [.writeNextResponse] (SameOrder.refl _) notClosing rfl

theorem Ordered.dropRequests
    {c next : ServerConnection}
    {error : Option ErrorCode}
    {returns : DropReturn}
    {rest frames : List Frame}
    (receiving : Receiving c (.dropRequests error returns :: rest))
    (layered : Layered (.dropRequests error returns :: rest))
    (pipelined : Pipelined c (.dropRequests error returns :: rest))
    (ordered : Ordered c (.dropRequests error returns :: rest))
    (executed : c.dropRequests error returns = .next next frames) :
    Ordered next (frames ++ rest) := by
  have restNotWriting : Frame.writeNextResponse ∉ rest := layered.writeOnTop
  unfold ServerConnection.dropRequests at executed
  split at executed
  · rename_i req others shape
    cases executed
    obtain ⟨finishing, written⟩ :=
      ordered.finishing.cleanup pipelined.logged req others
    have emitted :
        SameOrder (c.cleanupRequest req others)
          ((c.cleanupRequest req others).emit (.dropped req error)) :=
      SameOrder.emit _ rfl rfl
    have closed :
        ((c.cleanupRequest req others).emit
          (.dropped req error)).Closed ↔ c.Closed := by
      rw [emitted.closed]
      simp [cleanupRequest, isEnd, Closed, setRequest, emit]
    have block :
        ∀ other,
          ((c.cleanupRequest req others).emit
            (.dropped req error)).BlockWritten other ↔
            c.BlockWritten other := by
      intro other
      rw [emitted.blockWritten]
      simp [BlockWritten, written]
    have attached :
        ∀ other,
          ((c.cleanupRequest req others).emit
            (.dropped req error)).Attached other ↔
            other ≠ req ∧ c.Attached other := by
      intro other
      rw [emitted.attached, attached_cleanupRequest]
    have silent :
        c.Silent →
        ((c.cleanupRequest req others).emit (.dropped req error)).Silent := id
    -- a dropped request was behind a held one, or the connection is closed
    have why : c.Closed ∨ c.Silent := by
      cases returns with
      | doClose soft =>
          exact Or.inl (ordered.closes error soft (by simp))
      | writeNextResponse current tmpChunks =>
          exact Or.inr
            (receiving.heldApart current (by simp [held, held?])).2.2.2
    refine
      { finishing := emitted.finishing finishing
        parsed := ?_
        attached := ?_
        single := by simp [isDropping]
        returned := by simp [isDropping]
        writing := by simp
        front := by simp [isDropping]
        heldFront := ?_
        heldClosing := ordered.heldClosing
        fresh := by simp [isDropping]
        closes := ?_
        ends := by simp [isWindow] }
    · intro _ _
      rw [closed]
      exact Or.inr (why.imp_right silent)
    · intro other member
      rw [attached, closed]
      have wasMember :
          other ∈ c.requests ++
            held (.dropRequests error returns :: rest) := by
        rcases List.mem_append.mp member with behind | isHeld
        · rw [shape]
          exact List.mem_append_left _ (List.mem_cons_of_mem _ behind)
        · exact List.mem_append_right _ isHeld
      have different : other ≠ req := by
        rcases List.mem_append.mp member with behind | isHeld
        · have sorted := receiving.sorted
          rw [shape] at sorted
          have := (List.pairwise_cons.mp sorted).1 other behind
          omega
        · rintro rfl
          exact (receiving.heldApart other isHeld).2.1 (by simp [shape])
      exact (ordered.attached other wasMember).imp_left fun was =>
        ⟨different, was⟩
    · intro other member earlier less
      rw [block]
      exact ordered.heldFront other member earlier less
    · intro otherError soft member
      rw [closed]
      apply ordered.closes otherError soft
      simpa using member
  · rename_i empty
    split at executed
    · rename_i soft
      have isClosed : c.Closed := ordered.closes error true (by simp)
      cases executed
      exact ordered.replace [_] (SameOrder.refl c) (by simp [isInner])
        (by simp) (Or.inr ⟨empty, isClosed⟩) (by simp) rfl
        fun isHead => (restNotWriting (List.mem_of_mem_head? isHead)).elim
    · have isClosed : c.Closed := ordered.closes error false (by simp)
      cases executed
      exact ordered.replace [_] (SameOrder.emit c rfl rfl) (by simp [isInner])
        (by simp) (Or.inr ⟨empty, isClosed⟩) (by simp [isInner]) rfl (by simp)
    · -- the held request is alone in the deque again
      rename_i req tmpChunks
      have restFree : suspended rest = false := layered.not_suspended rfl
      have isHeld :
          req ∈ held
            (.dropRequests error (.writeNextResponse req tmpChunks) :: rest) := by
        simp [held, held?]
      have closing : c.closing = true :=
        ordered.heldClosing (List.ne_nil_of_mem isHeld)
      have before := ordered.heldFront req isHeld
      have restored :
          Ordered { c with requests := [req] } rest := by
        refine Ordered.free ⟨ordered.finishing.each, ordered.finishing.ended⟩
          ordered.parsed ?_ (by simp) ?_ ?_ (by simp) restFree restNotWriting
        · intro other member
          have isReq : other = req := by simpa using member
          rw [isReq]
          exact ordered.attached req (List.mem_append_right _ isHeld)
        · intro other first _ earlier less
          have isReq : other = req := by simpa [eq_comm] using first
          rw [isReq] at less
          exact before earlier less
        · intro _ notClosing
          have wasNotClosing : c.closing = false := notClosing
          rw [closing] at wasNotClosing
          cases wasNotClosing
      unfold flushResponse at executed
      split at executed
      · cases executed
        exact restored.progress restored.finishing (Progress.refl _) restFree
          (by simp [isWindow, restFree]) (by simpa using restNotWriting)
      · cases executed
        exact restored.progress
          (restored.finishing.writeChunks req tmpChunks before)
          ((Progress.refl _).writeChunks req tmpChunks) restFree restFree
          restNotWriting

/-! ## Reading -/

theorem Parses.closed
    {c next : ServerConnection}
    {result : Parsed}
    {req : Nat}
    (parses : Parses c result next req) :
    next.Closed ↔ c.Closed := by
  unfold Closed
  obtain ⟨_, _, ⟨_, _, _, trace⟩ | ⟨_, _, _, _, trace⟩⟩ := parses.origin <;>
    rw [trace] <;> split <;> simp [isEnd]

theorem Ordered.parse
    {c next : ServerConnection}
    {result : Parsed}
    {rest : List Parsed}
    {req : Nat}
    {stack : List Frame}
    (receiving : Receiving c [.onRead (result :: rest)])
    (pipelined : Pipelined c [.onRead (result :: rest)])
    (ordered : Ordered c [.onRead (result :: rest)])
    (permitted :
      CreatesWhileOpen ⟨c, [.onRead (result :: rest)], none⟩ .tick)
    (parses : Parses c result next req)
    (free : suspended stack = false)
    (notWriting : Frame.writeNextResponse ∉ stack) :
    Ordered next stack := by
  have wasFree : suspended [Frame.onRead (result :: rest)] = false := rfl
  have written := parses.written
  have block :
      ∀ other, next.BlockWritten other ↔ c.BlockWritten other := by
    simp [BlockWritten, written]
  obtain ⟨base, stored, origin⟩ := parses.origin
  have deque :
      next.requests = c.requests ∧ req ∈ c.requests ∨
        next.requests = c.requests ++ [req] := by
    by_cases last : c.requests.getLast? = some req
    · exact Or.inl ⟨by simp [parses.requests, last],
        List.mem_of_getLast? last⟩
    · exact Or.inr (by simp [parses.requests, last])
  have reqAttached : next.Attached req ∨ next.Closed := by
    rcases origin with ⟨parsing, same, _⟩ | ⟨_, fresh, _⟩
    · have notSilent : ¬ c.Silent := by
        rcases receiving.buffered with between | ⟨_, _, notSilent⟩
        · have idle :=
            between (.onRead (result :: rest)) (by simp) (by simp [buffer])
          simp [parsing] at idle
        · exact notSilent
      rw [parses.closed]
      rcases ordered.parsed req parsing with isAttached | closed | silent
      · left
        simpa [Attached, stored, same] using isAttached
      · exact Or.inr closed
      · exact (notSilent silent).elim
    · left
      simp [Attached, stored, fresh]
  -- a request that is new to an empty deque is the newest one of all
  have joins :
      c.requests = [] →
      next.Attached req →
      ∀ other < req, c.BlockWritten other := by
    intro empty isAttached other less
    rcases origin with ⟨parsing, same, _⟩ | ⟨parsing, _, isNext, _⟩
    · have wasAttached : c.Attached req := by
        simpa [Attached, stored, same] using isAttached
      have located := receiving.located req wasAttached
      simp [empty, held, held?] at located
    · have opened : ¬ c.Closed :=
        permitted (by simp [createsRequest, parsing])
      have notClosing : c.closing = false := by
        rw [Bool.eq_false_iff]
        exact fun closing => ordered.ends closing opened wasFree empty
      have finished :=
        ordered.fresh opened rfl notClosing other (by omega)
      simpa [empty] using finished
  refine Ordered.free ?_ ?_ ?_ ?_ ?_ ?_ ?_ free notWriting
  · refine ⟨by rw [written]; exact ordered.finishing.each, ?_⟩
    intro other started completed
    rw [Started, written] at started
    rw [block]
    refine ordered.finishing.ended other started ?_
    obtain ⟨response, member⟩ := started
    have old := (parses.stored (pipelined.logged.below _ member)).2
    simp only [Piece.req] at old
    simpa [Completed, ServerRequest.responseCompleted, old] using completed
  · intro other parsing
    rw [parses.parsing] at parsing
    split at parsing
    · cases parsing
    · rw [← Option.some.inj parsing]
      exact reqAttached.imp_right Or.inl
  · intro other member
    by_cases same : other = req
    · rw [same]
      exact reqAttached
    · have wasMember : other ∈ c.requests := by
        rcases deque with ⟨shape, _⟩ | shape
        · rwa [shape] at member
        · rw [shape] at member
          exact (List.mem_append.mp member).resolve_right
            (by simpa using same)
      rw [parses.closed]
      refine (ordered.attached other
        (List.mem_append_left _ wasMember)).imp_left ?_
      simp [Attached, parses.others other same]
  · rw [parses.closed]
    intro closed
    have few := ordered.single closed rfl
    rcases deque with ⟨shape, _⟩ | shape
    · rwa [shape]
    · rcases origin with ⟨parsing, _⟩ | ⟨parsing, _⟩
      · rcases (receiving.reading parsing).2 with inside | empty
        · have last :=
            receiving.newest_last (receiving.reading parsing).1 inside
          have same : next.requests = c.requests := by
            simp [parses.requests, last]
          rwa [same]
        · simp [shape, empty]
      · exact (permitted (by simp [createsRequest, parsing]) closed).elim
  · intro first isFirst isAttached other less
    rw [block]
    by_cases empty : c.requests = []
    · have isReq : first = req := by
        rcases deque with ⟨_, member⟩ | shape
        · simp [empty] at member
        · simpa [shape, empty, eq_comm] using isFirst
      rw [isReq] at isAttached less
      exact joins empty isAttached other less
    · have wasFirst : first ∈ c.requests.head? := by
        obtain ⟨front, others, shape⟩ := List.exists_cons_of_ne_nil empty
        rcases deque with ⟨same, _⟩ | same <;>
          simpa [same, shape] using isFirst
      have old :=
        parses.stored
          (receiving.requestsBelow first (List.mem_of_mem_head? wasFirst))
      exact ordered.front rfl (by simp) first wasFirst
        (by simpa [Attached, old.1] using isAttached) other less
  · rw [parses.closed, parses.closing]
    intro opened notClosing other below
    rw [block]
    by_cases same : other = req
    · left
      rw [same]
      rcases deque with ⟨shape, member⟩ | shape <;> simp [shape]
      exact member
    · have old : other < c.nextId := by
        rcases origin with ⟨_, _, sameId, _⟩ | ⟨_, _, isNext, grows, _⟩ <;>
          omega
      refine (ordered.fresh opened rfl notClosing other old).imp_left ?_
      intro member
      rcases deque with ⟨shape, _⟩ | shape <;> simp [shape, member]
  · intro _ _
    rcases deque with ⟨shape, member⟩ | shape
    · rw [shape]
      exact List.ne_nil_of_mem member
    · simp [shape]

theorem Ordered.onReadLoop
    {c next : ServerConnection}
    {buf : List Parsed}
    {frames : List Frame}
    (receiving : Receiving c [.onRead buf])
    (pipelined : Pipelined c [.onRead buf])
    (ordered : Ordered c [.onRead buf])
    (permitted : CreatesWhileOpen ⟨c, [.onRead buf], none⟩ .tick)
    (executed : c.onReadLoop buf = .next next frames) :
    Ordered next frames := by
  cases buf with
  | nil =>
      cases executed
      exact ordered.progress ordered.finishing (Progress.refl c) rfl rfl
        (by simp)
  | cons result rest =>
      obtain ⟨parsed, req, parses, reads⟩ := onReadLoop_next executed
      have parse :
          ∀ stack,
            suspended stack = false →
            Frame.writeNextResponse ∉ stack →
            Ordered parsed stack :=
        fun _ => Ordered.parse receiving pipelined ordered permitted parses
      cases reads with
      | route _ _ =>
          have routed :=
            parse
              [.fire (.routeEvent req),
                .routed req result.isDone
                  (if result.isDone then rest else [])]
              rfl (by simp)
          exact routed.calls
            (SameOrder.setRequest parsed req
              { parsed.store req with routed := true } rfl rfl rfl)
            (by simp)
      | _ =>
          exact parse _ rfl (by simp)

theorem Ordered.readFails
    {c next : ServerConnection}
    {req : Nat}
    {error : ErrorCode}
    (receiving : Receiving c [])
    (pipelined : Pipelined c [])
    (ordered : Ordered c [])
    (permitted :
      CreatesWhileOpen ⟨c, [], none⟩ (.input (.onReadError error)))
    (fails : ReadFails c next req) :
    Ordered next [.requestError req error] := by
  have written := fails.written
  have block :
      ∀ other, next.BlockWritten other ↔ c.BlockWritten other := by
    simp [BlockWritten, written]
  have closed : next.Closed ↔ c.Closed := by
    unfold Closed
    rcases fails.origin with
      ⟨_, _, _, _, trace, _⟩ | ⟨_, _, _, _, trace, _⟩ <;>
      simp [trace, isEnd]
  have old :
      ∀ other < c.nextId, (next.Attached other ↔ c.Attached other) := by
    intro other below
    simp [Attached, (fails.stored below).1]
  have finishing : Finishing next := by
    refine ⟨by rw [written]; exact ordered.finishing.each, ?_⟩
    intro other started completed
    rw [Started, written] at started
    rw [block]
    refine ordered.finishing.ended other started ?_
    obtain ⟨response, member⟩ := started
    have same := (fails.stored (pipelined.logged.below _ member)).2
    simp only [Piece.req] at same
    simpa [Completed, ServerRequest.responseCompleted, same] using completed
  have parsed :
      ∀ other,
        next.parsing = some other →
        next.Attached other ∨ next.Closed ∨ next.Silent := by
    intro other parsing
    rw [fails.parsing] at parsing
    rw [closed, old other (receiving.parsingNewest other parsing).1]
    refine (ordered.parsed other parsing).imp_right (Or.imp_right ?_)
    simp [Silent, canRead, fails.stream]
  have wasFirst :
      ∀ first ∈ c.requests.head?,
        next.Attached first → ∀ other < first, next.BlockWritten other := by
    intro first isFirst isAttached other less
    rw [block]
    refine ordered.front rfl (by simp) first isFirst ?_ other less
    exact (old first
      (receiving.requestsBelow first (List.mem_of_mem_head? isFirst))).mp
        isAttached
  have wasAttached :
      ∀ other ∈ c.requests, next.Attached other ∨ next.Closed := by
    intro other member
    rw [closed, old other (receiving.requestsBelow other member)]
    exact ordered.attached other (List.mem_append_left _ member)
  rcases fails.origin with
    ⟨last, _, requests, nextId, _⟩ |
      ⟨lastDone, isNext, requests, nextId, _, stored⟩
  · refine Ordered.free finishing parsed ?_ ?_ ?_ ?_ ?_ rfl (by simp)
    · rw [requests]
      exact wasAttached
    · rw [closed, requests]
      exact fun isClosed => ordered.single isClosed rfl
    · rw [requests]
      exact wasFirst
    · rw [closed, fails.closing, nextId, requests]
      intro opened notClosing other below
      rw [block]
      exact ordered.fresh opened rfl notClosing other below
    · rw [requests]
      exact fun _ _ => List.ne_nil_of_mem (List.mem_of_getLast? last)
  · have creates :
        createsRequest ⟨c, [], none⟩ (.input (.onReadError error)) = true := by
      cases last : c.requests.getLast? with
      | none =>
          simp [createsRequest, last]
      | some newest =>
          simpa [createsRequest, last, Done] using lastDone newest last
    have opened : ¬ c.Closed := permitted creates
    have reqAttached : next.Attached req := by
      simp [Attached, stored]
    refine Ordered.free finishing parsed ?_ ?_ ?_ ?_ ?_ rfl (by simp)
    · rw [requests]
      intro other member
      rcases List.mem_append.mp member with wasIn | isNew
      · exact wasAttached other wasIn
      · left
        simp only [List.mem_singleton] at isNew
        rwa [isNew]
    · rw [closed]
      exact fun isClosed => (opened isClosed).elim
    · intro first isFirst isAttached other less
      rw [requests] at isFirst
      by_cases empty : c.requests = []
      · have isReq : first = req := by
          simpa [empty, eq_comm] using isFirst
        have notClosing : c.closing = false := by
          rw [Bool.eq_false_iff]
          exact fun closing => ordered.ends closing opened rfl empty
        rw [block]
        have finished :=
          ordered.fresh opened rfl notClosing other (by omega)
        simpa [empty] using finished
      · obtain ⟨front, others, shape⟩ := List.exists_cons_of_ne_nil empty
        exact wasFirst first (by simpa [shape] using isFirst) isAttached
          other less
    · rw [fails.closing, nextId, requests]
      intro _ notClosing other below
      rw [block]
      by_cases same : other = req
      · simp [same]
      · exact (ordered.fresh opened rfl notClosing other (by omega)).imp_left
          fun member => List.mem_append_left _ member
    · simp [requests]

/-! ## Every step -/

theorem Ordered.tick
    {frame : Frame}
    {rest frames : List Frame}
    {c next : ServerConnection}
    (ordered : Ordered c (frame :: rest))
    (receiving : Receiving c (frame :: rest))
    (layered : Layered (frame :: rest))
    (pipelined : Pipelined c (frame :: rest))
    (permitted : CreatesWhileOpen ⟨c, frame :: rest, none⟩ .tick)
    (executed : code frame c = .next next frames) :
    Ordered next (frames ++ rest) := by
  have restNotWriting : Frame.writeNextResponse ∉ rest := layered.writeOnTop
  have replaced :
      ∀ frames,
        SameOrder c next →
        isInner frame = true →
        isWindow frame = false →
        (∀ other ∈ frames, isInner other = true) →
        suspended frames = false →
        Frame.writeNextResponse ∉ frames →
        Ordered next (frames ++ rest) := by
    intro frames same inner noWindow framesInner free notWriting
    refine ordered.replace [frame] same (by simpa using inner) ?_
      (Or.inl (by simp [noWindow])) framesInner free ?_
    · exact noReturn_of_free (by simp [noWindow])
    · intro isHead
      rcases List.mem_append.mp (List.mem_of_mem_head? isHead) with
        inFrames | inRest
      · exact (notWriting inFrames).elim
      · exact (restNotWriting inRest).elim
  have reads :
      isReader frame = true →
      SameOrder c next →
      suspended frames = false →
      Frame.writeNextResponse ∉ frames →
      Ordered next (frames ++ rest) := by
    intro reader same free notWriting
    have alone := receiving.alone reader
    subst rest
    have wasFree : suspended [frame] = false := by
      cases frame <;> simp_all [isReader, isWindow]
    rw [List.append_nil]
    have kept : Ordered c frames :=
      ordered.progress ordered.finishing (Progress.refl c) wasFree free
        notWriting
    exact kept.calls same notWriting
  cases frame with
  | callback fired =>
      cases executed
      exact replaced [] (SameOrder.refl c) rfl rfl (by simp) rfl (by simp)
  | fire fired =>
      cases executed
      exact replaced [_] (SameOrder.emit c rfl rfl) rfl rfl
        (by simp [isInner]) rfl (by simp)
  | onRead buf =>
      have alone := receiving.alone rfl
      subst rest
      simpa using
        Ordered.onReadLoop receiving pipelined ordered permitted executed
  | routed req done buf =>
      simp only [code, routed] at executed
      split at executed
      · cases executed
        exact reads rfl (SameOrder.refl c) rfl (by simp)
      · split at executed <;> cases executed <;>
          exact reads rfl (SameOrder.refl c) rfl (by simp)
  | received req done buf =>
      simp only [code, received] at executed
      split at executed
      · cases executed
        exact reads rfl (SameOrder.refl c) rfl (by simp)
      · split at executed
        · cases executed
          exact reads rfl (SameOrder.refl c) rfl (by simp)
        · split at executed <;> cases executed
          · exact reads rfl
              (SameOrder.of_plain (Plain.readIgnore c)
                (by simp [Closed, readIgnore, isEnd])) rfl (by simp)
          · exact reads rfl (SameOrder.refl c) rfl (by simp)
  | requestError req error =>
      cases executed
      exact replaced [_, _]
        (SameOrder.of_plain (Plain.readIgnore c)
          (by simp [Closed, readIgnore, isEnd]))
        rfl rfl (by simp [isInner]) rfl (by simp)
  | requestErrorReturn req =>
      simp only [code, requestErrorReturn] at executed
      split at executed
      · exact Ordered.respond [_] pipelined.logged ordered (by simp [isInner])
          rfl restNotWriting executed
      · rename_i response stored
        split at executed <;> cases executed
        · exact replaced [] (SameOrder.setResponse c req stored rfl) rfl rfl
            (by simp) rfl (by simp)
        · exact replaced [] (SameOrder.refl c) rfl rfl (by simp) rfl (by simp)
  | readIgnore =>
      cases executed
      exact replaced []
        (SameOrder.of_plain (Plain.readIgnore c)
          (by simp [Closed, ServerConnection.readIgnore, isEnd]))
        rfl rfl (by simp) rfl (by simp)
  | writeNextResponse =>
      exact Ordered.writeNextResponse layered pipelined ordered executed
  | finishRequest =>
      exact Ordered.finishRequest receiving layered pipelined ordered executed
  | finishReturn =>
      exact Ordered.finishReturn layered ordered executed
  | dropRequests error returns =>
      exact Ordered.dropRequests receiving layered pipelined ordered executed
  | dropNotify req error =>
      simp only [code, dropNotify] at executed
      split at executed
      · split at executed <;> cases executed <;>
          exact replaced [_] (SameOrder.refl c) rfl rfl (by simp [isInner]) rfl
            (by simp)
      · split at executed <;> cases executed
        · exact replaced [] (SameOrder.refl c) rfl rfl (by simp) rfl (by simp)
        · exact replaced [_] (SameOrder.refl c) rfl rfl (by simp [isInner]) rfl
            (by simp)
  | upgradeReturn =>
      cases executed
      exact replaced [_] (SameOrder.emit c rfl rfl) rfl rfl
        (by simp [isInner]) rfl (by simp)

/-- What the first request needs before it is written to. -/
theorem Ordered.before
    {c : ServerConnection}
    {stack : List Frame}
    {req : Nat}
    (ordered : Ordered c stack)
    (free : suspended stack = false)
    (first : req ∈ c.requests.head?)
    (attached : c.Attached req) :
    ∀ other < req, c.BlockWritten other :=
  ordered.front (dropping_of_free free)
    (fun member => (noReturn_of_free free member).elim) req first attached

theorem Ordered.sendContinue
    {c next : ServerConnection}
    {req : Nat}
    {stack frames : List Frame}
    (ordered : Ordered c stack)
    (attached : c.Attached req)
    (free : c.requests ≠ [] → suspended stack = false)
    (notWriting : Frame.writeNextResponse ∉ stack)
    (executed : c.sendContinue req = .next next frames) :
    Ordered next (frames ++ stack) := by
  unfold ServerConnection.sendContinue at executed
  split at executed
  · cases executed
  · rename_i front rest shape
    dsimp only at executed
    split at executed
    · cases executed
      exact ordered
    · rename_i isFront
      split at executed
      · cases executed
        exact ordered
      · split at executed
        · cases executed
        · cases executed
          have isReq : front = req := by simpa using isFront
          subst front
          have stackFree := free (by simp [shape])
          have before : ∀ other < req, c.BlockWritten other :=
            ordered.before stackFree (by simp [shape]) attached
          have wrote : Finishing (c.write (.continue100 req)) :=
            ordered.finishing.write before (by simp)
          have progress :
              Progress c (c.write (.continue100 req)) [.continue100 req] :=
            ⟨Kept.write c _, written_write c _, closed_write c _, Or.inl rfl⟩
          exact ordered.progress wrote progress stackFree stackFree notWriting

theorem Ordered.sendChunk
    {c next : ServerConnection}
    {req : Nat}
    {response : ServerResponse}
    {data : Data}
    {stack frames : List Frame}
    (ordered : Ordered c stack)
    (stored : (c.store req).response = some response)
    (accepts : c.Accepts req)
    (free : c.requests ≠ [] → suspended stack = false)
    (notWriting : Frame.writeNextResponse ∉ stack)
    (executed : c.sendChunk req response data = .next next frames) :
    Ordered next (frames ++ stack) := by
  have gave : SameOrder c (c.emit (.gaveChunk req data)) :=
    SameOrder.emit c rfl rfl
  simp only [ServerConnection.sendChunk] at executed
  split at executed
  · cases executed
  · rename_i front rest shape
    have deque : c.requests = front :: rest := shape
    have stackFree := free (by simp [deque])
    split at executed
    · cases executed
      exact ordered.calls gave notWriting
    · split at executed
      · rename_i isFront
        cases executed
        subst front
        have given := ordered.calls gave notWriting
        have before :
            ∀ other < req,
              (c.emit (.gaveChunk req data)).BlockWritten other :=
          given.before stackFree (by simp [shape]) accepts.1
        exact given.progress (given.finishing.writeChunks req [data] before)
          ((Progress.refl _).writeChunks req [data]) stackFree stackFree
          notWriting
      · cases executed
        exact ordered.calls
          (gave.trans (SameOrder.setResponse _ req stored rfl)) notWriting

theorem Ordered.sendFinalChunk
    {c next : ServerConnection}
    {req : Nat}
    {response : ServerResponse}
    {data : Data}
    {stack frames : List Frame}
    (receiving : Receiving c stack)
    (pipelined : Pipelined c stack)
    (ordered : Ordered c stack)
    (accepts : c.Accepts req)
    (free : c.requests ≠ [] → suspended stack = false)
    (notWriting : Frame.writeNextResponse ∉ stack)
    (executed : c.sendFinalChunk req response data = .next next frames) :
    Ordered next (frames ++ stack) := by
  have gave : SameOrder c (c.emit (.gaveFinalChunk req data)) :=
    SameOrder.emit c rfl rfl
  have given := ordered.calls gave notWriting
  have kept :
      Kept c
        ((c.emit (.gaveFinalChunk req data)).setResponse req
          { response with completed := true }) :=
    (Kept.emit c _).trans (Kept.setResponse _ req _)
  simp only [ServerConnection.sendFinalChunk] at executed
  split at executed
  · cases executed
  · rename_i front rest shape
    have deque : c.requests = front :: rest := shape
    have stackFree := free (by simp [deque])
    split at executed
    · rename_i isFront
      cases executed
      subst front
      have before : ∀ other < req, c.BlockWritten other :=
        ordered.before stackFree (by simp [deque]) accepts.1
      have written :
          (((c.emit (.gaveFinalChunk req data)).setResponse req
            { response with completed := true }).write
              (.finalChunk req data)).written =
            c.written ++ [.finalChunk req data] := by
        rw [written_write]
        change (c.emit (.gaveFinalChunk req data)).written ++ _ = _
        rw [gave.written]
      have progress :
          Progress c
            (((c.emit (.gaveFinalChunk req data)).setResponse req
              { response with completed := true }).write
                (.finalChunk req data))
            [.finalChunk req data] :=
        { kept := kept.trans (Kept.write _ _)
          written := written
          closed := by
            rw [closed_write]
            exact gave.closed
          closing := Or.inl rfl }
      -- the final chunk is what finishes the response
      have finishing : Finishing _ :=
        { each := by
            rw [written]
            exact each_snoc.mpr ⟨ordered.finishing.each, before⟩
          ended := by
            intro other started completed
            by_cases same : other = req
            · exact ⟨.finalChunk req data, by simp [written],
                by simp [same, Piece.req], rfl⟩
            · refine blockWritten_mono written ?_
              refine ordered.finishing.ended other ?_ ?_
              · obtain ⟨head, member⟩ := started
                rw [written] at member
                simp only [List.mem_append, List.mem_singleton,
                  reduceCtorEq, or_false] at member
                exact ⟨head, member⟩
              · simpa [Completed, same, ServerConnection.write, emit]
                  using completed }
      exact ordered.progress finishing progress stackFree
        (by simpa [isWindow] using stackFree) (by simpa using notWriting)
    · rename_i notFront
      cases executed
      have notStarted : ¬ c.Started req := by
        rintro ⟨head, member⟩
        rcases receiving.located req accepts.1 with inside | isHeld
        · have reached :=
            pipelined.reached _ member front (by simp [deque])
          have sorted := receiving.sorted
          rw [deque] at inside sorted
          rcases List.mem_cons.mp inside with same | behind
          · exact notFront same.symm
          · have := (List.pairwise_cons.mp sorted).1 req behind
            simp only [Piece.req] at reached
            omega
        · simp [noneHeld_of_free stackFree] at isHeld
      have same :
          SameOrder c
            ((c.emit (.gaveFinalChunk req data)).setResponse req
              { response with completed := true }) := by
        refine ⟨kept.requests, kept.nextId, gave.written, kept.attached, ?_,
          rfl, rfl, kept.silent, gave.closed⟩
        intro other started completed
        have different : other ≠ req := fun same => notStarted (same ▸ started)
        simpa [Completed, different, emit] using completed
      exact ordered.calls same notWriting

theorem Ordered.input
    {input : Input}
    {stack frames : List Frame}
    {c next : ServerConnection}
    (ordered : Ordered c stack)
    (receiving : Receiving c stack)
    (layered : Layered stack)
    (pipelined : Pipelined c stack)
    (boundary : machine.atBoundary stack = true)
    (permitted : RespondsInTurn ⟨c, stack, none⟩ (.input input))
    (accepted : accept input stack.head? c = some (.next next frames)) :
    Ordered next (frames ++ stack) := by
  have notWriting := notWriting_of_boundary boundary layered.writeOnTop
  have free := pipelined.emptied.free permitted.1
  cases input with
  | respond req response =>
      simp only [accept] at accepted
      split at accepted
      · cases accepted
      · simp only [Option.some.injEq, requestRespond] at accepted
        split at accepted
        · exact Ordered.respond [] pipelined.logged ordered (by simp) rfl
            notWriting accepted
        · cases accepted
          exact ordered
  | sendContinue req =>
      simp only [accept, Option.some.injEq, requestSendContinue] at accepted
      split at accepted
      · rename_i attached
        exact ordered.sendContinue attached (free rfl) notWriting accepted
      · cases accepted
        exact ordered
  | sendChunk req data =>
      simp only [accept, Option.some.injEq] at accepted
      rcases responseSend_next accepted with
        ⟨rfl, rfl⟩ | ⟨response, stored, accepts, sent⟩
      · exact ordered
      · exact ordered.sendChunk stored accepts (free rfl) notWriting sent
  | sendFinalChunk req data =>
      simp only [accept, Option.some.injEq] at accepted
      rcases responseSend_next accepted with
        ⟨rfl, rfl⟩ | ⟨response, _, accepts, sent⟩
      · exact ordered
      · exact Ordered.sendFinalChunk receiving pipelined ordered accepts
          (free rfl) notWriting sent
  | upgrade req =>
      simp only [accept, Option.some.injEq, requestUpgrade] at accepted
      split at accepted
      · cases accepted
        exact ordered
      · split at accepted
        · cases accepted
          exact ordered
        · unfold ServerConnection.upgrade at accepted
          split at accepted
          · cases accepted
            have handedOver :
                SamePieces c
                  ({ c with
                    stream := { c.stream with listener := false }
                    idleTimer := none }.emit (.upgraded req)) :=
              SamePieces.of_store rfl rfl
                (by simp [written, emit, piece?]) rfl
            have wasFinishing :
                Finishing
                  ({ c with
                    stream := { c.stream with listener := false }
                    idleTimer := none }.emit (.upgraded req)) := by
              refine ⟨?_, ?_⟩
              · rw [handedOver.written]
                exact ordered.finishing.each
              · intro other started completed
                rw [BlockWritten, handedOver.written]
                exact ordered.finishing.ended other
                  ((handedOver.started other).mp started) completed
            obtain ⟨finishing, cleaned⟩ :=
              wasFinishing.cleanup (handedOver.logged pipelined.logged) req []
            have written := cleaned.trans handedOver.written
            have closed :
                (({ c with
                    stream := { c.stream with listener := false }
                    idleTimer := none }.emit (.upgraded req)).cleanupRequest
                  req []).Closed := by
              simp [cleanupRequest, Closed, emit, setRequest, isEnd]
            have pushedHeld :
                held ([.fire (.finishEvent req), .upgradeReturn] ++ stack) =
                  held stack :=
              held_inner (by simp [isInner]) stack
            refine
              { finishing := finishing
                parsed := fun _ _ => Or.inr (Or.inl closed)
                attached := fun _ _ => Or.inr closed
                single := by simp [cleanupRequest, emit, setRequest]
                returned := by simp [cleanupRequest, emit, setRequest]
                writing := by simp
                front := by simp [cleanupRequest, emit, setRequest]
                heldFront := ?_
                heldClosing := ?_
                fresh := fun opened => (opened closed).elim
                closes := fun _ _ _ => closed
                ends := fun _ opened => (opened closed).elim }
            · intro other member earlier less
              rw [pushedHeld] at member
              rw [BlockWritten, written]
              exact ordered.heldFront other member earlier less
            · rw [pushedHeld]
              exact ordered.heldClosing
          · cases accepted
  | enablePartial req =>
      cases accepted
      exact ordered.calls (SameOrder.setRequest c req _ rfl rfl rfl) notWriting
  | gracefulStop =>
      simp only [accept, Option.some.injEq, gracefulStop] at accepted
      split at accepted
      · exact ordered.doClose rfl accepted
      · cases accepted
        exact ordered.calls
          (SameOrder.of_pieces (SamePieces.of_store rfl rfl rfl rfl) rfl rfl id
            Iff.rfl)
          notWriting
  | onRead buf =>
      cases stack with
      | nil =>
          simp only [List.head?_nil, accept] at accepted
          split at accepted <;> cases accepted
          exact ordered.progress ordered.finishing (Progress.refl c) rfl rfl
            (by simp)
      | cons frame rest =>
          simp [accept] at accepted
  | onReadError error =>
      cases stack with
      | nil =>
          simp only [List.head?_nil, accept] at accepted
          split at accepted
          · simp only [Option.some.injEq] at accepted
            obtain ⟨req, rfl, fails⟩ := onReadError_next accepted
            have between := boundary_between receiving boundary
            have ended :
                Kept c
                  { c with stream := { c.stream with ended := true } } :=
              ⟨rfl, rfl, rfl, fun _ => Iff.rfl, fun _ => Iff.rfl,
                fun _ => by simp [Silent, canRead]⟩
            have same :
                SameOrder c
                  { c with stream := { c.stream with ended := true } } :=
              SameOrder.of_pieces (SamePieces.of_store rfl rfl rfl rfl) rfl rfl
                ended.silent Iff.rfl
            exact Ordered.readFails (receiving.same ended between)
              (pipelined.calls (SamePieces.of_store rfl rfl rfl rfl)
                notWriting)
              (ordered.calls same notWriting) permitted.2 fails
          · cases accepted
      | cons frame rest =>
          simp [accept] at accepted
  | _ =>
      obtain ⟨middle, plain, trace, outcome⟩ := accept_plain rfl accepted
      have same : SameOrder c middle :=
        SameOrder.of_plain plain (by simp [Closed, trace])
      have called := ordered.calls same notWriting
      rcases outcome with ⟨rfl, rfl⟩ | removed | ⟨error, soft, closed⟩
      · exact called
      · cases removed
        exact called.replace [] (SameOrder.emit middle rfl rfl) (by simp)
          (by simp) (Or.inl rfl) (by simp [isInner]) rfl (by simp)
      · exact called.doClose rfl closed

/-- Every permitted step preserves the order of the responses. -/
theorem ordered_preserved :
    machine.Preserves RespondsInTurn
      (fun c stack =>
        (Receiving c stack ∧ Layered stack ∧ Pipelined c stack) ∧
          Ordered c stack) := by
  apply preserves_of
  · rintro frame rest c next frames running permitted ⟨below, ordered⟩ executed
    exact ⟨pipelined_preserved.tick frame rest c next frames running
        permitted.1 below executed,
      ordered.tick below.1 below.2.1 below.2.2 permitted.2 executed⟩
  · rintro fired rest c ⟨below, ordered⟩
    refine ⟨pipelined_preserved.ret (.callback fired) rest c rfl below, ?_⟩
    have popped : Ordered c ([] ++ rest) :=
      ordered.replace [.callback fired] (SameOrder.refl c) (by simp [isInner])
        (by simp) (Or.inl rfl) (by simp) rfl
        fun isHead =>
          (below.2.1.writeOnTop (List.mem_of_mem_head? isHead)).elim
    exact popped
  · rintro input stack c next frames boundary permitted ⟨below, ordered⟩ accepted
    exact ⟨pipelined_preserved.input input stack c next frames boundary
        permitted.1 below accepted,
      ordered.input below.1 below.2.1 below.2.2 boundary permitted accepted⟩
  · rintro stack c exception boundary ⟨⟨receiving, layered, pipelined⟩, ordered⟩
    have notWriting := notWriting_of_boundary boundary layered.writeOnTop
    exact ⟨⟨receiving.threw boundary, layered,
        pipelined.calls (SamePieces.emit c rfl) notWriting⟩,
      ordered.calls (SameOrder.emit c rfl rfl) notWriting⟩

theorem ordered_initial (config : ConnectionConfig) :
    Ordered (initial config) [] := by
  refine Ordered.free ?_ ?_ ?_ ?_ ?_ ?_ ?_ rfl (by simp)
  · exact ⟨each_nil Precedes, by simp [initial, Started, written]⟩
  all_goals simp [initial, Closed]

/-- Where no request is created on a closed connection, responses are in order. -/
theorem inOrder_of_respondsInTurn
    {config : ConnectionConfig}
    {labels : List Label}
    {final : Config}
    (ran : run? config labels = some final)
    (inTurn : machine.Guarded RespondsInTurn (start config) labels) :
    InOrder final.state := by
  obtain ⟨⟨_, _, pipelined⟩, ordered⟩ :=
    ordered_preserved.run
      (⟨⟨receiving_initial config, layered_nil, pipelined_initial config⟩,
          ordered_initial config⟩ :
        (Receiving (start config).state (start config).stack ∧
          Layered (start config).stack ∧
            Pipelined (start config).state (start config).stack) ∧
          Ordered (start config).state (start config).stack)
      inTurn ran
  exact ⟨pipelined.logged.inBlocks, ordered.finishing.each⟩

/-- The second response is given first, and the first one in two pieces. -/
def secondResponseFirst : List Label :=
  twoRequests ++
    ([.input (.respond 1 {}), .input (.respond 0 { chunked := true }), .tick,
      .input (.sendFinalChunk 0 ['a']), .tick, .tick, .ret, .tick,
      .tick] : List Label)

theorem inOrder_secondResponseFirst :
    ∃ final,
      run? {} secondResponseFirst = some final ∧
        InOrder final.state ∧
        final.state.written.map Piece.req = [0, 0, 1] := by
  have inTurn :
      machine.Guarded RespondsInTurn (start {}) secondResponseFirst := by
    decide
  have ran : run? {} secondResponseFirst = some _ := rfl
  exact ⟨_, ran, inOrder_of_respondsInTurn ran inTurn, rfl⟩

/-- The connection is closed in a callback of the first of two requests. -/
def closedInCallback : List Label :=
  [.input (.onRead [.done {}, .done {}]),
    .tick, .tick, .ret, .tick, .tick, .ret, .tick,
    .input (.respond 0 { chunked := true }), .tick, .input (.close none), .tick,
    .tick, .ret, .tick, .tick, .ret, .tick, .ret, .ret,
    .tick, .tick, .tick, .ret, .tick, .tick, .ret, .tick,
    .input (.respond 1 {}), .tick]

/-- The second response begins although the first one is not finished. -/
theorem closedInCallback_not_inOrder :
    ∃ final,
      run? {} closedInCallback = some final ∧
        machine.Guarded RespondsOnDelivery (start {}) closedInCallback ∧
        ¬ InOrder final.state := by
  refine ⟨_, rfl, by decide, ?_⟩
  intro inOrder
  obtain ⟨last, member, sameReq, ends⟩ :=
    inOrder.2 [_] _ [] rfl 0 (by decide)
  simp only [List.mem_singleton] at member
  subst last
  cases ends

end UniEventHttp.ServerConnection
