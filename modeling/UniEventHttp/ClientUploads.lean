import UniEventHttp.ClientForms
import UniEventHttp.ClientIsolation
import UniEventHttp.ItemUpload

namespace UniEventHttp.ClientSide

/-!
# The upload of a form

Here the form of a request is uploaded as a list of items, some of them streamed;
`_form_field` is the place of the item that is being streamed.
-/

/-- How the items of a form are sent. -/
def formPlan (r : Nat) : ItemUpload.Plan FormItem Data Piece where
  isStreamed item := !item.isImmediate
  opening := FormItem.pieces r
  data := .formData r
  trailer := .formFinish r

/-- A streamer runs, and what it delivers goes to the client. -/
def Streaming.RunsFor (streaming : Streaming) (c : Nat) : Prop :=
  streaming.streamer = some c ∧ streaming.running = true

namespace World

theorem front_formPlan (r : Nat) (form : List FormItem) :
    (formPlan r).front form = immediate form := by
  simp [ItemUpload.Plan.front, formPlan, immediate]

theorem back_formPlan (r : Nat) (form : List FormItem) :
    (formPlan r).back form = streamed form := by
  simp [ItemUpload.Plan.back, formPlan, streamed]

theorem passage_formPlan (r : Nat) (form : List FormItem) :
    (formPlan r).passage form = formStart r form := by
  unfold ItemUpload.Plan.passage formStart
  rw [front_formPlan, back_formPlan]
  cases streamed form <;> rfl

theorem separate_formPlan (r : Nat) : (formPlan r).Separate where
  opening item := by
    cases item <;> simp [formPlan, FormItem.pieces]
  data _ := by
    simp [formPlan]

/-! ## What is to be shown -/

/-- The last head of a request that has been written, and what came after it. -/
def sentOf (r : Nat) (trace : List Event) : Option (RequestFields × List Piece) :=
  trace.foldl
    (fun sent event =>
      match event with
      | .wrote _ _ (.head s fields) => if s = r then some (fields, []) else sent
      | .wrote _ _ piece =>
          if piece.req = r then
            sent.map fun since => (since.1, since.2 ++ [piece])
          else
            sent
      | _ => sent)
    none

/-- A request is started in a step. -/
def Begins (w next : World) (r : Nat) : Prop :=
  (w.requests r).client = none ∧
    ∃ c fields,
      (next.clients c).request = some r ∧
        sentOf r next.trace = some (fields, startPieces r fields)

/-- The upload of the active request of a client is not complete. -/
def Uploading (w : World) (c r : Nat) : Prop :=
  (w.clients c).request = some r ∧
    ∃ fields pieces,
      sentOf r w.trace = some (fields, pieces) ∧
        fields.formStreaming = true ∧
        ¬ (formPlan r).Full fields.form pieces

/-- A step ends the upload of a request early, with an error. -/
structure EndsUpload
    (before after : Config)
    (r : Nat)
    (error : ErrorCode) : Prop where
  sent : sentOf r after.state.trace = sentOf r before.state.trace
  stopped :
    ∀ item,
      ((after.state.requests r).streaming item).running = false ∧
        (((before.state.requests r).streaming item).running = true →
          ((after.state.requests r).streaming item).streamer = none)
  gone : ∀ c, (after.state.clients c).request ≠ some r
  fires :
    ∃ answer below, after.stack = endFrames r answer (some error) ++ below
  ends :
    ∃ events,
      after.state.trace = before.state.trace ++ events ∧ ends events = [r]

/-- The application cancels what a client does, or its request. -/
inductive CancelsUpload (r c : Nat) (error : Option ErrorCode) : Input → Prop where
  | request : CancelsUpload r c error (.cancel r error)
  | client : CancelsUpload r c error (.clientCancel c error)

/-- In a step, forms are uploaded in order. -/
structure UploadStep (before : Config) (label : Label) (after : Config) : Prop where
  /-- What is written after the head is a part of a complete upload. -/
  order :
    ∀ r fields pieces,
      sentOf r after.state.trace = some (fields, pieces) →
      fields.formStreaming = true →
      ∃ full, (formPlan r).Full fields.form full ∧ pieces <+: full
  /-- `_transfer_completed` is set with the trailer. -/
  completes :
    ∀ c r,
      (after.state.clients c).request = some r →
      ∃ fields pieces,
        sentOf r after.state.trace = some (fields, pieces) ∧
          (fields.formStreaming = true →
            ((after.state.requests r).transferCompleted = true ↔
              (formPlan r).Full fields.form pieces))
  /-- Data are written that the streamer of the current item delivers. -/
  delivers :
    ∀ r item data,
      label = .input (.streamData r item data) →
      ∃ fields pieces,
        sentOf r before.state.trace = some (fields, pieces) ∧
          (formPlan r).Streams fields.form item pieces ∧
          sentOf r after.state.trace =
            some (fields, pieces ++ [.formData r data])
  /-- When it has finished, the next items are sent. -/
  resumes :
    ∀ r item,
      label = .input (.streamFinish r item none) →
      ∃ fields pieces,
        sentOf r before.state.trace = some (fields, pieces) ∧
          (formPlan r).Streams fields.form item pieces ∧
          sentOf r after.state.trace =
            some
              (fields,
                pieces ++ (formPlan r).passage (fields.form.drop (item + 1)))
  /-- Otherwise nothing is written of a form, unless its request is started. -/
  quiet :
    ∀ r fields pieces,
      sentOf r before.state.trace = some (fields, pieces) →
      fields.formStreaming = true →
      (∀ item data, label ≠ .input (.streamData r item data)) →
      (∀ item, label ≠ .input (.streamFinish r item none)) →
      sentOf r after.state.trace = some (fields, pieces) ∨
        Begins before.state after.state r
  /-- A streamer fails. -/
  fails :
    ∀ r item error,
      label = .input (.streamFinish r item (some error)) →
      EndsUpload before after r error
  /-- The request is cancelled. -/
  cancels :
    ∀ r c error input,
      Uploading before.state c r →
      CancelsUpload r c error input →
      label = .input input →
      EndsUpload before after r (error.getD (.http .transferAborted))
  /-- When an upload ends early, its item is stopped. -/
  stops :
    ∀ c r,
      Uploading before.state c r →
      (after.state.clients c).request ≠ some r →
      sentOf r after.state.trace = sentOf r before.state.trace ∧
        ∀ item, ((after.state.requests r).streaming item).running = false
  /-- It is not reported as a success. -/
  reports :
    ∀ c r answer,
      Uploading before.state c r →
      .fire (.responseEvent r answer none) ∈ after.stack →
      .fire (.responseEvent r answer none) ∈ before.stack

/-- In a run that no assertion ends, forms are uploaded in order. -/
def UploadRun (w : World) (labels : List Label) : Prop :=
  ∀ first label rest before after,
    labels = first ++ label :: rest →
    run? w first = some before →
    machine.step? before label = some after →
    after.fault = none →
    UploadStep before label after

/-! ## The condition -/

/-- A redirect is being followed. -/
def isRedirectFrame : Frame → Bool
  | .fire (.redirectEvent _ _ _ _) => true
  | .redirected _ => true
  | .redirectCatch _ => true
  | _ => false

/-- A client is in the middle of a form. -/
def InForm (w : World) (c : Nat) : Prop :=
  0 ≤ (w.clients c).formField

instance (w : World) (c : Nat) : Decidable (w.InForm c) :=
  inferInstanceAs (Decidable (0 ≤ _))

/-- The condition on a call or an event in the middle of a form. -/
def LeavesForms (w : World) : Input → Prop
  | .sendChunk r _ | .sendFinalChunk r _ =>
      ∀ c ∈ (w.requests r).client, ¬ w.InForm c
  | .streamFinish r item (some _) =>
      ∀ c ∈ ((w.requests r).streaming item).streamer, w.NextStarts c
  | .cancel r _ => ∀ c ∈ (w.requests r).client, w.InForm c → w.NextStarts c
  | .clientCancel c _ => w.InForm c → w.NextStarts c
  | _ => True

instance (w : World) (input : Input) : Decidable (w.LeavesForms input) := by
  unfold LeavesForms
  split <;> infer_instance

/--
No redirect is followed; the application sends no chunks of its own in the middle of
a form; and when a streamer fails or the request is cancelled there, the first
request that waits for the client can be started.
-/
def KeepsForms (config : Config) (label : Label) : Prop :=
  (∀ frame ∈ config.stack, isRedirectFrame frame = false) ∧
    ∀ input, label = .input input → config.state.LeavesForms input

instance (config : Config) (label : Label) :
    Decidable (KeepsForms config label) :=
  match label with
  | .input input =>
      decidable_of_iff
        ((∀ frame ∈ config.stack, isRedirectFrame frame = false) ∧
          config.state.LeavesForms input)
        (and_congr_right fun _ =>
          ⟨fun leaves _ same => CallMachine.Label.input.inj same ▸ leaves,
            fun leaves => leaves input rfl⟩)
  | .tick | .ret | .throw =>
      decidable_of_iff (∀ frame ∈ config.stack, isRedirectFrame frame = false)
        ⟨fun none => ⟨none, by rintro input ⟨⟩⟩, And.left⟩

/-! ## Pieces -/

/-- The request of which an event is a piece, in `sentOf`. -/
def isPieceOf (r : Nat) : Event → Bool
  | .wrote _ _ piece => piece.req == r
  | _ => false

/-- What is written of other requests does not matter. -/
theorem sentOf_append
    {r : Nat}
    {events : List Event}
    (trace : List Event)
    (others : ∀ event ∈ events, isPieceOf r event = false) :
    sentOf r (trace ++ events) = sentOf r trace := by
  induction events generalizing trace with
  | nil =>
      simp
  | cons event rest inductionHypothesis =>
      have regrouped : trace ++ event :: rest = (trace ++ [event]) ++ rest := by
        simp
      rw [regrouped, inductionHypothesis (trace ++ [event])
        fun other member => others other (List.mem_cons_of_mem _ member)]
      have other := others event List.mem_cons_self
      unfold sentOf
      rw [List.foldl_append]
      cases event with
      | wrote c connection piece =>
          have notSame : piece.req ≠ r := by
            simpa [isPieceOf] using other
          cases piece <;> simp_all [Piece.req]
      | _ =>
          rfl

/-- A head is written. -/
theorem sentOf_head
    (r c connection : Nat)
    (fields : RequestFields)
    (trace : List Event) :
    sentOf r (trace ++ [.wrote c connection (.head r fields)]) =
      some (fields, []) := by
  unfold sentOf
  rw [List.foldl_append]
  simp

theorem flatMap_wroteOn (c connection : Nat) (pieces : List Piece) :
    pieces.flatMap (wroteOn c (some connection)) =
      pieces.map (.wrote c connection) := by
  induction pieces with
  | nil =>
      rfl
  | cons piece rest inductionHypothesis =>
      rw [List.flatMap_cons, inductionHypothesis]
      rfl

/-- Pieces are written behind a head. -/
theorem sentOf_pieces
    {r : Nat}
    {pieces : List Piece}
    (c connection : Nat)
    (trace : List Event)
    (behind :
      ∀ piece ∈ pieces,
        piece.req = r ∧ ∀ other fields, piece ≠ .head other fields) :
    sentOf r (trace ++ pieces.map (.wrote c connection)) =
      (sentOf r trace).map fun since => (since.1, since.2 ++ pieces) := by
  induction pieces generalizing trace with
  | nil =>
      simp
  | cons piece rest inductionHypothesis =>
      have regrouped :
          trace ++ (piece :: rest).map (.wrote c connection) =
            (trace ++ [.wrote c connection piece]) ++
              rest.map (.wrote c connection) := by
        simp
      rw [regrouped, inductionHypothesis (trace ++ [Event.wrote c connection piece])
        fun other member => behind other (List.mem_cons_of_mem _ member)]
      obtain ⟨same, notHead⟩ := behind piece List.mem_cons_self
      have one :
          sentOf r (trace ++ [.wrote c connection piece]) =
            (sentOf r trace).map fun since => (since.1, since.2 ++ [piece]) := by
        unfold sentOf
        rw [List.foldl_append]
        cases piece with
        | head other fields =>
            exact (notHead other fields rfl).elim
        | _ =>
            simp_all [Piece.req]
      rw [one, Option.map_map]
      congr 1
      funext since
      simp

/-! ## Sending a form -/

/-- `send_form` has gone on from an item, and has come to the next streamed one. -/
def Paused (w : World) (c r index : Nat) (next : World) : Prop :=
  match (formPlan r).stop (w.requests r).form index with
  | none =>
      (next.clients c).formField = -1 ∧
        (next.requests r).streaming = (w.requests r).streaming ∧
        (next.requests r).transferCompleted = true
  | some item =>
      (next.clients c).formField = item ∧
        (next.requests r).streaming =
          Function.update (w.requests r).streaming item
            { given := w.config.takesInput
              streamer := some c
              running := true } ∧
        (next.requests r).transferCompleted =
          (w.requests r).transferCompleted

/-- Only the form has been sent. -/
def SentForm (w : World) (c r index : Nat) (next : World) : Prop :=
  next =
    w.sent c r (next.clients c).formField (next.clients c).tcp.writeQueue
      (next.requests r).streaming (next.requests r).transferCompleted
      (formStart r ((w.requests r).form.drop index))

theorem sendForm_pauses
    {w : World}
    {c r index : Nat}
    (active : (w.clients c).request = some r)
    (field : (w.clients c).formField = index)
    (inside : index ≤ (w.requests r).form.length) :
    (w.sendForm c).Post
      (fun next => Paused w c r index next ∧ SentForm w c r index next)
      (fun _ => False) (fun _ => True) := by
  rw [sendForm_eq active field inside]
  dsimp only
  unfold Paused SentForm ItemUpload.Plan.stop formStart
  rw [back_formPlan, front_formPlan]
  rcases streamed_cases ((w.requests r).form.drop index) with
    none | ⟨name, mimeType, filename, rest, shape⟩
  · simp only [none]
    refine ⟨⟨?_, ?_, ?_⟩, ?_⟩
    · simp [trailed, World.sent]
    · simp [trailed, passed, World.sent]
    · simp [trailed, World.sent]
    · simp [trailed, passed, World.sent]
  · simp only [shape]
    split
    · trivial
    · have isItem :
          ((index : Int) +
            (immediate ((w.requests r).form.drop index)).length).toNat =
              index + (immediate ((w.requests r).form.drop index)).length := by
        omega
      refine ⟨⟨?_, ?_, ?_⟩, ?_⟩
      · simp [World.streaming, passed, World.sent, field]
      · simp [World.streaming, passed, World.sent, field, isItem]
      · simp [World.streaming, passed, World.sent]
      · simp [World.streaming, passed, World.sent, FormItem.pieces]

/-! ## What holds between the steps -/

/-- A client with a request has a connection, and a parser unless its stream ended. -/
structure Live (client : ClientSide.Client) : Prop where
  wired :
    client.tcp.status ≠ .closed → client.tcp.connection.isSome = true
  opened : client.request.isSome = true → client.tcp.status ≠ .closed
  hears :
    client.request.isSome = true →
    client.parsing.isSome = true ∨ client.tcp.eof = true

/-- The upload of the active request of a client is complete, or at an item. -/
inductive Progress
    (w : World)
    (c r : Nat)
    (fields : RequestFields)
    (pieces : List Piece) :
    Prop where
  | ended :
      (w.clients c).formField = -1 →
      (fields.formStreaming = true →
        (w.requests r).transferCompleted = true ∧
          (formPlan r).Sent fields.form none pieces) →
      Progress w c r fields pieces
  | item (index : Nat) :
      (w.clients c).formField = index →
      fields.formStreaming = true →
      (w.requests r).transferCompleted = false →
      (formPlan r).Sent fields.form (some index) pieces →
      ((w.requests r).streaming index).RunsFor c →
      Progress w c r fields pieces

/-- What is known of all uploads. -/
structure Books (w : World) : Prop where
  linked : Linked w
  idle : ∀ c, (w.clients c).request = none → (w.clients c).formField = -1
  holds :
    ∀ c r,
      (w.clients c).request = some r →
      ∃ fields pieces,
        sentOf r w.trace = some (fields, pieces) ∧
          fields.form = (w.requests r).form ∧
          Progress w c r fields pieces
  running :
    ∀ r item,
      ((w.requests r).streaming item).running = true →
      ∃ c,
        (w.clients c).request = some r ∧ (w.clients c).formField = (item : Nat)
  fresh :
    ∀ r, (w.requests r).client = none → (w.requests r).transferCompleted = false
  sent :
    ∀ r fields pieces,
      sentOf r w.trace = some (fields, pieces) →
      fields.formStreaming = true →
      ∃ position, (formPlan r).Sent fields.form position pieces

/-- Nothing changes that the uploads depend on. -/
structure Same (w next : World) : Prop where
  request : ∀ c, (next.clients c).request = (w.clients c).request
  field : ∀ c, (next.clients c).formField = (w.clients c).formField
  link : ∀ r, (next.requests r).client = (w.requests r).client
  form :
    ∀ r c, (w.requests r).client = some c →
      (next.requests r).form = (w.requests r).form
  streaming :
    ∀ r item,
      (next.requests r).streaming item = (w.requests r).streaming item ∨
        (w.requests r).client = none ∧
          ((next.requests r).streaming item).running = false
  completed :
    ∀ r, (next.requests r).transferCompleted = (w.requests r).transferCompleted
  sent : ∀ r, sentOf r next.trace = sentOf r w.trace

namespace Same

variable {w next third : World}

theorem refl (w : World) : Same w w :=
  ⟨fun _ => rfl, fun _ => rfl, fun _ => rfl, fun _ _ _ => rfl,
    fun _ _ => Or.inl rfl, fun _ => rfl, fun _ => rfl⟩

theorem trans
    (one : Same w next)
    (two : Same next third) :
    Same w third where
  request c := (two.request c).trans (one.request c)
  field c := (two.field c).trans (one.field c)
  link r := (two.link r).trans (one.link r)
  form r c linked :=
    (two.form r c ((one.link r).trans linked)).trans (one.form r c linked)
  streaming r item := by
    rcases two.streaming r item with same | ⟨unlinked, stopped⟩
    · rw [same]
      exact one.streaming r item
    · exact Or.inr ⟨(one.link r).symm.trans unlinked, stopped⟩
  completed r := (two.completed r).trans (one.completed r)
  sent r := (two.sent r).trans (one.sent r)

theorem emit
    (w : World)
    {event : Event}
    (noPiece : ∀ r, isPieceOf r event = false) :
    Same w (w.emit event) where
  request _ := rfl
  field _ := rfl
  link _ := rfl
  form _ _ _ := rfl
  streaming _ _ := Or.inl rfl
  completed _ := rfl
  sent r := sentOf_append w.trace (by simpa using noPiece r)

theorem setClient
    (w : World)
    (c : Nat)
    {client : ClientSide.Client}
    (request : client.request = (w.clients c).request)
    (field : client.formField = (w.clients c).formField) :
    Same w (w.setClient c client) where
  request d := by
    by_cases here : d = c
    · subst d
      simpa [World.setClient] using request
    · simp [World.setClient, here]
  field d := by
    by_cases here : d = c
    · subst d
      simpa [World.setClient] using field
    · simp [World.setClient, here]
  link _ := rfl
  form _ _ _ := rfl
  streaming _ _ := Or.inl rfl
  completed _ := rfl
  sent _ := rfl

theorem setTcp (w : World) (c : Nat) (tcp : Tcp) : Same w (w.setTcp c tcp) :=
  setClient w c rfl rfl

theorem setRequest
    (w : World)
    (r : Nat)
    {request : Request}
    (link : request.client = (w.requests r).client)
    (form :
      (w.requests r).client ≠ none → request.form = (w.requests r).form)
    (streaming :
      request.streaming = (w.requests r).streaming ∨
        (w.requests r).client = none ∧
          ∀ item, (request.streaming item).running = false)
    (completed :
      request.transferCompleted = (w.requests r).transferCompleted) :
    Same w (w.setRequest r request) where
  request _ := rfl
  field _ := rfl
  link s := by
    by_cases here : s = r
    · subst s
      simpa [World.setRequest] using link
    · simp [World.setRequest, here]
  form s c linked := by
    by_cases here : s = r
    · subst s
      simpa [World.setRequest] using form (by simp [linked])
    · simp [World.setRequest, here]
  streaming s item := by
    by_cases here : s = r
    · subst s
      rcases streaming with same | ⟨unlinked, stopped⟩
      · exact Or.inl (by simp [World.setRequest, same])
      · exact Or.inr ⟨unlinked, by simpa [World.setRequest] using stopped item⟩
    · exact Or.inl (by simp [World.setRequest, here])
  completed s := by
    by_cases here : s = r
    · subst s
      simpa [World.setRequest] using completed
    · simp [World.setRequest, here]
  sent _ := rfl

end Same

theorem Progress.same
    {w next : World}
    {c r : Nat}
    {fields : RequestFields}
    {pieces : List Piece}
    (progress : Progress w c r fields pieces)
    (linked : (w.requests r).client = some c)
    (same : Same w next) :
    Progress next c r fields pieces := by
  cases progress with
  | ended field complete =>
      refine .ended ((same.field c).trans field) fun streams => ?_
      rw [same.completed]
      exact complete streams
  | item index field streams incomplete isSent streaming =>
      refine .item index ((same.field c).trans field) streams
        ((same.completed r).trans incomplete) isSent ?_
      rcases same.streaming r index with kept | ⟨unlinked, _⟩
      · rw [kept]
        exact streaming
      · rw [unlinked] at linked
        cases linked

theorem Books.same
    {w next : World}
    (books : Books w)
    (same : Same w next) :
    Books next where
  linked c r active :=
    (same.link r).trans (books.linked c r ((same.request c).symm.trans active))
  idle c none :=
    (same.field c).trans (books.idle c ((same.request c).symm.trans none))
  holds c r active := by
    have was := (same.request c).symm.trans active
    obtain ⟨fields, pieces, isSent, form, progress⟩ := books.holds c r was
    have linked := books.linked c r was
    exact ⟨fields, pieces, (same.sent r).trans isSent,
      form.trans (same.form r c linked).symm, progress.same linked same⟩
  running r item runs := by
    rcases same.streaming r item with kept | ⟨_, stopped⟩
    · rw [kept] at runs
      obtain ⟨c, active, field⟩ := books.running r item runs
      exact ⟨c, (same.request c).trans active, (same.field c).trans field⟩
    · rw [stopped] at runs
      cases runs
  fresh r unlinked :=
    (same.completed r).trans (books.fresh r ((same.link r).symm.trans unlinked))
  sent r fields pieces isSent :=
    books.sent r fields pieces ((same.sent r).symm.trans isSent)

/-! ## The start of a request -/

section Starting

variable {w next : World} {c r : Nat}

theorem Paused.congr
    {index : Nat}
    {other : World}
    (paused : Paused w c r index next)
    (config : w.config = other.config)
    (form : (w.requests r).form = (other.requests r).form)
    (streaming : (w.requests r).streaming = (other.requests r).streaming)
    (completed :
      (w.requests r).transferCompleted = (other.requests r).transferCompleted) :
    Paused other c r index next := by
  unfold Paused at paused ⊢
  rw [config, form, streaming, completed] at paused
  exact paused

theorem startRequest_pauses (w : World) (c r : Nat) :
    (w.startRequest c r).Post
      (fun next =>
        (w.requests r).formStreaming = true → Paused w c r 0 next)
      (fun _ => False) (fun _ => True) := by
  have timed :
      (w.begun c r).requests r =
        { w.requests r with
          timer :=
            ((w.requests r).ensureTimerActive (w.clients c).loop w.now).timer } := by
    simp only [begun, Function.update_self]
    exact ensureTimerActive_eq _ _ _
  rw [startRequest_eq]
  split
  · generalize isReady :
      (w.begun c r).setClient c
        { (w.begun c r).clients c with formField := 0 } = ready
    have active : (ready.clients c).request = some r := by
      simp [← isReady, World.setClient, begun]
    have field : (ready.clients c).formField = ((0 : Nat) : Int) := by
      simp [← isReady, World.setClient]
    have same : ready.requests r = (w.begun c r).requests r := by
      simp [← isReady, World.setClient]
    have config : ready.config = w.config := by
      simp [← isReady, World.setClient, begun]
    rw [timed] at same
    refine (sendForm_pauses active field (Nat.zero_le _)).imp ?_ (fun _ => id)
      (fun _ => id)
    rintro next ⟨paused, _⟩ _
    exact paused.congr config (by rw [same]) (by rw [same]) (by rw [same])
  · rename_i notStreaming
    split <;> exact fun streams => (notStreaming streams).elim

/-- What `Client::request` does to an upload. -/
structure Opens (w : World) (c r : Nat) (next : World) : Prop where
  started : Started w c r next
  wrote : Wrote w c r next
  paused : (w.requests r).formStreaming = true → Paused w c r 0 next

theorem clientRequest_opens (w : World) (c r : Nat) :
    (w.clientRequest c r).Post (Opens w c r) (Refused w c r) (fun _ => True) := by
  have pauses :
      (w.clientRequest c r).Post
        (fun next =>
          (w.requests r).formStreaming = true → Paused w c r 0 next)
        (fun _ => True) (fun _ => True) := by
    rcases clientRequest_linked w c r with
      ⟨next, refuses, _⟩ | ⟨tcp, opening, _, _, starts⟩
    · rw [refuses]
      trivial
    · rw [starts]
      have same :
          (w.linked c r tcp opening).requests r =
            { w.requests r with
              client := some c
              uri := (w.requests r).uri.map Uri.withScheme } := by
        simp [World.linked]
      refine (startRequest_pauses _ c r).imp ?_ (fun _ => False.elim)
        (fun _ => id)
      intro next paused streams
      refine (paused ?_).congr rfl (by rw [same]) (by rw [same]) (by rw [same])
      rw [same]
      exact streams
  have all :=
    ((clientRequest_post w c r).and (clientRequest_wrote w c r)).and pauses
  exact all.imp (fun _ both => ⟨both.1.1, both.1.2, both.2⟩)
    (fun _ both => both.1.1) (fun _ _ => trivial)

theorem connection_of_connects
    {fields : RequestFields}
    {tcp : Tcp}
    {opening : List Event}
    (sound : Live (w.clients c))
    (connects : Connects w c fields tcp opening) :
    ∃ connection, tcp.connection = some connection := by
  cases connects with
  | reuses status _ _ =>
      exact Option.isSome_iff_exists.mp (sound.wired (by simp [status]))
  | opens _ _ _ connection _ _ =>
      exact ⟨_, connection⟩

/-- The head of the request is written, and its form as far as it can be sent. -/
theorem Wrote.sentOf
    (wrote : Wrote w c r next)
    (sound : Live (w.clients c)) :
    World.sentOf r next.trace =
        some
          ((w.requests r).toRequestFields.withScheme,
            startPieces r (w.requests r).toRequestFields) ∧
      ∀ s, s ≠ r → World.sentOf s next.trace = World.sentOf s w.trace := by
  obtain ⟨tcp, opening, connects, trace⟩ := wrote.trace
  obtain ⟨connection, hasConnection⟩ := connection_of_connects sound connects
  have before :
      ∀ s, ∀ event ∈ opening ++ [.started c r], isPieceOf s event = false := by
    intro s event member
    rcases List.mem_append.mp member with isOpening | isStart
    · cases connects with
      | reuses _ _ _ =>
          cases isOpening
      | opens _ _ _ _ _ _ =>
          rw [List.mem_singleton.mp isOpening]
          rfl
    · rw [List.mem_singleton.mp isStart]
      rfl
  have isTrace :
      next.trace =
        (w.trace ++ (opening ++ [.started c r])) ++
          (Piece.head r (w.requests r).toRequestFields.withScheme ::
            startPieces r (w.requests r).toRequestFields).map
              (.wrote c connection) := by
    rw [trace, hasConnection, flatMap_wroteOn]
    simp
  constructor
  · have regrouped :
        next.trace =
          ((w.trace ++ (opening ++ [.started c r])) ++
            [Event.wrote c connection
              (.head r (w.requests r).toRequestFields.withScheme)]) ++
            (startPieces r (w.requests r).toRequestFields).map
              (.wrote c connection) := by
      rw [isTrace]
      simp
    rw [regrouped,
      sentOf_pieces c connection _ fun piece member =>
        notHead_of_startPieces member,
      sentOf_head]
    rfl
  · intro s other
    rw [isTrace, sentOf_append _ ?_, sentOf_append _ (before s)]
    intro event member
    obtain ⟨piece, isPiece, rfl⟩ := List.mem_map.mp member
    have ofRequest : piece.req = r := by
      rcases List.mem_cons.mp isPiece with rfl | isPart
      · rfl
      · exact (notHead_of_startPieces isPart).1
    simp [isPieceOf, ofRequest, Ne.symm other]

theorem startPieces_sent
    {fields : RequestFields}
    (streams : fields.formStreaming = true) :
    (formPlan r).Sent fields.form ((formPlan r).stop fields.form 0)
      (startPieces r fields) := by
  have begins :
      (formPlan r).Sent fields.form ((formPlan r).stop fields.form 0)
        ((formPlan r).passage fields.form) :=
    .start
  rw [passage_formPlan] at begins
  simpa [startPieces, streams] using begins

theorem Opens.progress
    (opens : Opens w c r next)
    (books : Books w) :
    Progress next c r (w.requests r).toRequestFields.withScheme
      (startPieces r (w.requests r).toRequestFields) := by
  have idle := books.idle c opens.started.idle
  have fresh := books.fresh r opens.started.unlinked
  cases streams : (w.requests r).formStreaming with
  | false =>
      refine .ended ((opens.started.plain streams).1.trans idle) ?_
      intro impossible
      have off : (w.requests r).formStreaming = true := impossible
      rw [streams] at off
      cases off
  | true =>
      have sent :
          (formPlan r).Sent (w.requests r).form
            ((formPlan r).stop (w.requests r).form 0)
            (startPieces r (w.requests r).toRequestFields) :=
        startPieces_sent streams
      have paused := opens.paused streams
      unfold Paused at paused
      generalize (formPlan r).stop (w.requests r).form 0 = stop at sent paused
      cases stop with
      | none =>
          exact .ended paused.1 fun _ => ⟨paused.2.2, sent⟩
      | some index =>
          refine .item index paused.1 streams (paused.2.2.trans fresh) sent ?_
          rw [paused.2.1, Function.update_self]
          exact ⟨rfl, rfl⟩

/-- A file is streamed by its client, at the place where the form has come to. -/
theorem Opens.running
    (opens : Opens w c r next)
    (books : Books w)
    {item : Nat}
    (runs : ((next.requests r).streaming item).running = true) :
    (next.clients c).formField = (item : Nat) := by
  have stopped : ((w.requests r).streaming item).running ≠ true := by
    intro was
    obtain ⟨d, active, _⟩ := books.running r item was
    have linked := books.linked d r active
    rw [opens.started.unlinked] at linked
    cases linked
  cases streams : (w.requests r).formStreaming with
  | false =>
      rw [(opens.started.plain streams).2.1] at runs
      exact (stopped runs).elim
  | true =>
      have paused := opens.paused streams
      unfold Paused at paused
      generalize (formPlan r).stop (w.requests r).form 0 = stop at paused
      cases stop with
      | none =>
          rw [paused.2.1] at runs
          exact (stopped runs).elim
      | some index =>
          rw [paused.2.1] at runs
          by_cases same : item = index
          · subst item
            exact paused.1
          · rw [Function.update_of_ne same] at runs
            exact (stopped runs).elim

theorem Opens.books
    (opens : Opens w c r next)
    (books : Books w)
    (sound : Live (w.clients c)) :
    Books next := by
  have started := opens.started
  obtain ⟨isSent, others⟩ := opens.wrote.sentOf sound
  have linkedNow : (next.requests r).client = some c := by
    rw [started.request]
  have formNow :
      (next.requests r).form =
        (w.requests r).toRequestFields.withScheme.form := by
    rw [started.request]
    rfl
  have notActive : ∀ d, (w.clients d).request ≠ some r := by
    intro d active
    have linked := books.linked d r active
    rw [started.unlinked] at linked
    cases linked
  -- the other clients go on with other requests
  have other :
      ∀ d s, d ≠ c → (next.clients d).request = some s →
        (w.clients d).request = some s ∧ s ≠ r := by
    intro d s different active
    rw [started.clients d different] at active
    refine ⟨active, ?_⟩
    rintro rfl
    exact notActive d active
  refine
    { linked := ?_, idle := ?_, holds := ?_, running := ?_, fresh := ?_
      sent := ?_ }
  · intro d s active
    by_cases here : d = c
    · subst d
      rw [started.active] at active
      cases active
      exact linkedNow
    · obtain ⟨was, different⟩ := other d s here active
      rw [started.requests s different]
      exact books.linked d s was
  · intro d none
    by_cases here : d = c
    · subst d
      rw [started.active] at none
      cases none
    · rw [started.clients d here] at none ⊢
      exact books.idle d none
  · intro d s active
    by_cases here : d = c
    · subst d
      rw [started.active] at active
      cases active
      exact ⟨_, _, isSent, formNow.symm, opens.progress books⟩
    · obtain ⟨was, different⟩ := other d s here active
      obtain ⟨fields, pieces, sentBefore, form, progress⟩ := books.holds d s was
      refine ⟨fields, pieces, (others s different).trans sentBefore, ?_, ?_⟩
      · rw [started.requests s different]
        exact form
      · cases progress with
        | ended field complete =>
            refine .ended ?_ ?_
            · rw [started.clients d here]
              exact field
            · rw [started.requests s different]
              exact complete
        | item index field streams incomplete sent streaming =>
            refine .item index ?_ streams ?_ sent ?_
            · rw [started.clients d here]
              exact field
            · rw [started.requests s different]
              exact incomplete
            · rw [started.requests s different]
              exact streaming
  · intro s item runs
    by_cases here : s = r
    · subst s
      exact ⟨c, started.active, opens.running books runs⟩
    · rw [started.requests s here] at runs
      obtain ⟨d, active, field⟩ := books.running s item runs
      have notHere : d ≠ c := by
        rintro rfl
        rw [started.idle] at active
        cases active
      refine ⟨d, ?_, ?_⟩ <;> rw [started.clients d notHere]
      · exact active
      · exact field
  · intro s unlinked
    by_cases here : s = r
    · subst s
      rw [linkedNow] at unlinked
      cases unlinked
    · rw [started.requests s here] at unlinked ⊢
      exact books.fresh s unlinked
  · intro s fields pieces sentNow streams
    by_cases here : s = r
    · subst s
      rw [isSent] at sentNow
      cases sentNow
      exact ⟨_, startPieces_sent streams⟩
    · rw [others s here] at sentNow
      exact books.sent s fields pieces sentNow streams

theorem Opens.sound
    (opens : Opens w c r next)
    (sound : Live (w.clients c)) :
    Live (next.clients c) := by
  obtain ⟨tcp, opening, pieces, connects, client, _⟩ := opens.started.connects
  obtain ⟨connection, hasConnection⟩ := connection_of_connects sound connects
  have status : tcp.status ≠ .closed := by
    cases connects with
    | reuses connected _ _ =>
        simp [connected]
    | opens _ _ connecting _ _ _ =>
        simp [connecting]
  have parses : (next.clients c).parsing.isSome = true := by
    rw [opens.started.client]
    rfl
  have isTcp : (next.clients c).tcp.status = tcp.status ∧
      (next.clients c).tcp.connection = tcp.connection := by
    rw [client]
    exact ⟨rfl, rfl⟩
  refine ⟨fun _ => ?_, fun _ => ?_, fun _ => Or.inl parses⟩
  · rw [isTcp.2, hasConnection]
    rfl
  · rw [isTcp.1]
    exact status

end Starting

end World

end UniEventHttp.ClientSide
