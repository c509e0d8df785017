import UniEventHttp.ClientResending
import UniEventHttp.ClientUploadSteps

namespace UniEventHttp.ClientSide

/-!
# Bodies that are sent again

A redirect with another code than 303 sends the body again, through the same
functions: the fields and the embedded files of a form as they were, and its
streamed files through streamers that are made anew.  Whether these have an input
depends on what the constructor of the first ones did with it, and what they
deliver on the input.
-/

/-! ## The data of a body -/

/-- The parts of a piece, which do not show how data have been divided. -/
def Piece.parts : Piece → List Piece
  | .formData r data => data.map fun char => .formData r [char]
  | piece => [piece]

theorem cuts_formPlan (r : Nat) : (formPlan r).Cuts Piece.parts where
  data _ := rfl
  distinct one two same := by
    simpa [formPlan] using same
  opening item := by
    cases item with
    | field name content =>
        exact ⟨_, [], rfl, fun _ => by simp [formPlan]⟩
    | embeddedFile name content mimeType filename =>
        exact ⟨_, _, rfl, fun _ => by simp [formPlan]⟩
    | file name mimeType filename =>
        exact ⟨_, [], rfl, fun _ => by simp [formPlan]⟩
  trailer := ⟨_, [], rfl, fun _ => by simp [formPlan]⟩

namespace World

/-- What a piece carries of the body of a request. -/
def carriedBy (r : Nat) : Piece → List Piece
  | .head other fields =>
      if other = r ∧ fields.body ≠ [] then [.chunk r fields.body] else []
  | piece => if piece.req = r then [piece] else []

/-- What events show of the body of a request. -/
def carriedIn (r : Nat) (events : List Event) : List Piece :=
  events.flatMap fun event =>
    match event with
    | .wrote _ _ piece => carriedBy r piece
    | _ => []

/-- What has been written of the body of a request since a state. -/
def bodySent (w next : World) (r : Nat) : List Piece :=
  carriedIn r (next.trace.drop w.trace.length)

/-- The body data that these pieces amount to. -/
def bodyData (w next : World) (r : Nat) : List Piece :=
  (w.bodySent next r).flatMap Piece.parts

/-- The body of the request apart from its form. -/
def bareBody (r : Nat) (fields : RequestFields) : List Piece :=
  if fields.body ≠ [] then [.chunk r fields.body] else []

/-- An open stream of the client has a connection. -/
def Wired (w : World) (c : Nat) : Prop :=
  (w.clients c).tcp.status = .connected → (w.clients c).tcp.connection.isSome

theorem carriedIn_append (r : Nat) (first second : List Event) :
    carriedIn r (first ++ second) = carriedIn r first ++ carriedIn r second :=
  List.flatMap_append

theorem carriedIn_wroteOn
    {r : Nat}
    {pieces : List Piece}
    (c connection : Nat)
    (behind :
      ∀ piece ∈ pieces,
        piece.req = r ∧ ∀ other fields, piece ≠ .head other fields) :
    carriedIn r (pieces.flatMap (wroteOn c (some connection))) = pieces := by
  unfold carriedIn
  rw [List.flatMap_assoc]
  calc
    (pieces.flatMap fun piece =>
        (wroteOn c (some connection) piece).flatMap fun event =>
          match event with
          | .wrote _ _ piece => carriedBy r piece
          | _ => []) =
        pieces.flatMap fun piece => [piece] := by
      refine List.flatMap_congr fun piece member => ?_
      obtain ⟨same, notHead⟩ := behind piece member
      cases piece with
      | head other fields =>
          exact (notHead other fields rfl).elim
      | _ =>
          simp_all [wroteOn, carriedBy]
    _ = pieces := by simp

/-- More of the body is written. -/
theorem bodySent_append
    {w middle next : World}
    {old events : List Event}
    (r : Nat)
    (before : middle.trace = w.trace ++ old)
    (after : next.trace = middle.trace ++ events) :
    w.bodySent next r = w.bodySent middle r ++ carriedIn r events := by
  unfold bodySent
  rw [after, before, List.append_assoc, List.drop_left, List.drop_left,
    carriedIn_append]

/-- A start sends the body of the request as far as it is known then. -/
theorem Wrote.bodySent
    {w next : World}
    {c r : Nat}
    (wrote : Wrote w c r next)
    (wired : w.Wired c) :
    w.bodySent next r =
      bareBody r (w.requests r).toRequestFields ++
        startPieces r (w.requests r).toRequestFields := by
  obtain ⟨tcp, opening, connects, trace⟩ := wrote.trace
  have isOpen : ∃ connection, tcp.connection = some connection := by
    cases connects with
    | reuses connected _ _ =>
        exact Option.isSome_iff_exists.mp (wired connected)
    | opens _ _ _ connection _ _ =>
        exact ⟨_, connection⟩
  obtain ⟨connection, isConnection⟩ := isOpen
  have noBody : carriedIn r opening = [] := by
    cases connects with
    | reuses _ _ _ | opens _ _ _ _ _ _ =>
        rfl
  have head :
      carriedIn r
          (.started c r ::
            wroteOn c (some connection)
              (.head r (w.requests r).toRequestFields.withScheme)) =
        bareBody r (w.requests r).toRequestFields := by
    simp [carriedIn, wroteOn, carriedBy, bareBody, RequestFields.withScheme]
  have behind :
      carriedIn r
          ((startPieces r (w.requests r).toRequestFields).flatMap
            (wroteOn c (some connection))) =
        startPieces r (w.requests r).toRequestFields :=
    carriedIn_wroteOn c connection fun _ => notHead_of_startPieces
  unfold World.bodySent
  rw [trace, isConnection, List.append_assoc, List.drop_left, carriedIn_append,
    noBody, List.nil_append, List.flatMap_cons, ← List.cons_append,
    carriedIn_append, head, behind]

/-! ## The transfer of a request -/

/-- Nothing happens to the transfer of a request on its client. -/
structure Undisturbed (w : World) (c r : Nat) (next : World) : Prop where
  takesInput : next.config.takesInput = w.config.takesInput
  request : (next.clients c).request = (w.clients c).request
  formField : (next.clients c).formField = (w.clients c).formField
  connection :
    (next.clients c).tcp.connection = (w.clients c).tcp.connection
  fields : (next.requests r).toRequestFields = (w.requests r).toRequestFields
  counter :
    (next.requests r).redirectionCounter = (w.requests r).redirectionCounter
  completed :
    (next.requests r).transferCompleted = (w.requests r).transferCompleted
  streaming : (next.requests r).streaming = (w.requests r).streaming
  trace :
    ∃ events, next.trace = w.trace ++ events ∧ carriedIn r events = []

/--
The transfer of a started request, up to a state, with what the item at hand has
delivered by then.  An item finishes when it has delivered what its input reads.
-/
inductive Transfers (reads : Nat → Data) (c r : Nat) (started : World) :
    World → Data → Prop where
  | start : Transfers reads c r started started []
  | undisturbed {w next : World} {sofar : Data} :
      Transfers reads c r started w sofar →
      Undisturbed w c r next →
      Transfers reads c r started next sofar
  | delivers {w next : World} {sofar data : Data} {item : Nat} :
      Transfers reads c r started w sofar →
      (w.requests r).formStreaming = true →
      (w.clients c).formField = item →
      accept (.streamData r item data) none w = some (.next next []) →
      Transfers reads c r started next (sofar ++ data)
  | finishes {w next : World} {item : Nat} :
      Transfers reads c r started w (reads item) →
      (w.requests r).formStreaming = true →
      (w.clients c).formField = item →
      accept (.streamFinish r item none) none w = some (.next next []) →
      Transfers reads c r started next []

/-- The transfer is complete; a form has been sent to its end. -/
structure Complete (w : World) (c r : Nat) : Prop where
  completed : (w.requests r).transferCompleted = true
  ended :
    (w.requests r).formStreaming = true → (w.clients c).formField = -1

/-- A transferred request is redirected, by another code than 303, and left alone. -/
inductive Hops (r c : Nat) (done before : World) : Prop where
  | follows {analyzed : World} {response : Response} {location : Uri} :
      Redirects done c r response location analyzed →
      response.code ≠ 303 →
      LeftAs (analyzed.hopped c r response) (before.requests r) →
      before.config.takesInput = done.config.takesInput →
      Hops r c done before

/--
The starts of a request: the first one, and one more after every redirect of the
transferred request.  `reads n item` is what the input of an item reads the n-th time.
-/
inductive Starts
    (reads : Nat → Nat → Data)
    (r : Nat)
    (first : World)
    (c : Nat) :
    Nat → World → Nat → World → Prop where
  | first {started : World} :
      first.clientRequest c r = .ok started →
      Starts reads r first c 0 first c started
  | again {n d e : Nat} {before started done next restarted : World}
      {sofar : Data} :
      Starts reads r first c n before d started →
      Transfers (reads n) d r started done sofar →
      Complete done d r →
      Hops r d done next →
      next.Wired e →
      next.clientRequest e r = .ok restarted →
      Starts reads r first c (n + 1) next e restarted

/--
Every hop sends the data that the first transfer has sent, and starts no streamer
whose input has been given away, which is the fault that may end a start.
-/
structure ResendsBody
    (reads : Nat → Nat → Data)
    (r : Nat)
    (first : World)
    (c : Nat)
    (done : World) : Prop where
  /-- The request can be started again. -/
  starts :
    ∀ {n d e : Nat} {before started last next : World} {sofar : Data},
      Starts reads r first c n before d started →
      Transfers (reads n) d r started last sofar →
      Complete last d r →
      Hops r d last next →
      next.Wired e →
      ∀ reason, next.clientRequest e r ≠ .fault reason
  /-- Its form goes on behind every item. -/
  resumes :
    ∀ {n d item : Nat} {before started last : World},
      Starts reads r first c (n + 1) before d started →
      Transfers (reads (n + 1)) d r started last (reads (n + 1) item) →
      (last.requests r).formStreaming = true →
      (last.clients d).formField = item →
      ∀ reason,
        accept (.streamFinish r item none) none last ≠ some (.fault reason)
  same :
    ∀ {n d : Nat} {before started last : World} {sofar : Data},
      Starts reads r first c n before d started →
      Transfers (reads n) d r started last sofar →
      Complete last d r →
      before.bodyData last r = first.bodyData done r

/-- So many redirects of the request would be followed. -/
def MayRedirectTimes (n : Nat) (request : Request) : Prop :=
  ∀ k < n,
    request.followRedirect = true ∧
      request.redirectionLimit ≠ 0 ∧
      (request.redirectionCounter + k + 1) % 2 ^ 16 ≤ request.redirectionLimit

/-- After every redirect that may be followed, the input of the item is still there. -/
def Rereads
    (takesInput : Bool)
    (reads : Nat → Nat → Data)
    (request : Request)
    (item : Nat) :
    Prop :=
  ∀ n,
    MayRedirectTimes (n + 1) request →
    takesInput = false ∧ reads (n + 1) item = reads 0 item

/-! ## The state of a transfer -/

/-- What the transfer of a started request leaves alone. -/
structure Transferring (w : World) (c r : Nat) (now : World) : Prop where
  active : (now.clients c).request = some r
  takesInput : now.config.takesInput = w.config.takesInput
  connected : (now.clients c).tcp.connection.isSome = true
  fields :
    (now.requests r).toRequestFields =
      (w.requests r).toRequestFields.withScheme
  counter :
    (now.requests r).redirectionCounter = (w.requests r).redirectionCounter
  trace : ∃ events, now.trace = w.trace ++ events

/-- The streamer of an item has been made, and has got the input. -/
def Passed (w now : World) (r index : Nat) : Prop :=
  ((now.requests r).streaming index).given = w.config.takesInput

/-- Where the streamers of a form stand. -/
structure AtPlace
    (w : World)
    (c r : Nat)
    (position : Option Nat)
    (now : World) : Prop where
  field :
    (now.clients c).formField =
      match position with
      | none => -1
      | some index => index
  runs :
    ∀ index ∈ position, ((now.requests r).streaming index).RunsFor c
  completed : position = none → (now.requests r).transferCompleted = true
  passed :
    ∀ index item,
      (w.requests r).form[index]? = some item →
      item.isImmediate = false →
      (∀ place ∈ position, index ≤ place) →
      Passed w now r index
  ahead :
    ∀ place ∈ position,
      ∀ index,
        place < index →
        ((now.requests r).streaming index).given =
          ((w.requests r).streaming index).given

/-- Where the transfer of a form stands. -/
structure Stage
    (reads : Nat → Data)
    (w : World)
    (c r : Nat)
    (position : Option Nat)
    (sofar : Data)
    (now : World) : Prop extends
    Transferring w c r now, AtPlace w c r position now where
  body :
    ∃ chunks,
      w.bodySent now r = bareBody r (w.requests r).toRequestFields ++ chunks ∧
        (formPlan r).Delivered reads (w.requests r).form position sofar chunks

section Transfers

variable {reads : Nat → Data} {w started now next : World} {c r : Nat}

/-- Pieces of the body are sent. -/
theorem Transferring.sent
    {pieces : List Piece}
    {field : Int}
    {queue : Nat}
    {streaming : Nat → Streaming}
    {completed : Bool}
    (transferring : Transferring w c r now)
    (behind :
      ∀ piece ∈ pieces,
        piece.req = r ∧ ∀ other fields, piece ≠ .head other fields)
    (isNext : next = now.sent c r field queue streaming completed pieces) :
    Transferring w c r next ∧
      w.bodySent next r = w.bodySent now r ++ pieces := by
  obtain ⟨connection, isConnection⟩ :=
    Option.isSome_iff_exists.mp transferring.connected
  obtain ⟨old, isOld⟩ := transferring.trace
  have trace :
      next.trace =
        now.trace ++ pieces.flatMap (wroteOn c (some connection)) := by
    rw [isNext]
    simp only [World.sent, isConnection]
  constructor
  · refine ⟨?_, ?_, ?_, ?_, ?_, ?_⟩
    · simpa [isNext, World.sent] using transferring.active
    · simpa [isNext, World.sent] using transferring.takesInput
    · simpa [isNext, World.sent] using transferring.connected
    · simpa [isNext, World.sent] using transferring.fields
    · simpa [isNext, World.sent] using transferring.counter
    · rw [trace, isOld, List.append_assoc]
      exact ⟨_, rfl⟩
  · rw [bodySent_append r isOld trace, carriedIn_wroteOn c connection behind]

theorem Transferring.undisturbed
    (transferring : Transferring w c r now)
    (undisturbed : Undisturbed now c r next) :
    Transferring w c r next ∧ w.bodySent next r = w.bodySent now r := by
  obtain ⟨old, isOld⟩ := transferring.trace
  obtain ⟨events, trace, nothing⟩ := undisturbed.trace
  constructor
  · refine ⟨?_, ?_, ?_, ?_, ?_, ?_⟩
    · exact undisturbed.request.trans transferring.active
    · exact undisturbed.takesInput.trans transferring.takesInput
    · rw [undisturbed.connection]
      exact transferring.connected
    · exact undisturbed.fields.trans transferring.fields
    · exact undisturbed.counter.trans transferring.counter
    · rw [trace, isOld, List.append_assoc]
      exact ⟨_, rfl⟩
  · rw [bodySent_append r isOld trace, nothing, List.append_nil]

theorem Opens.transferring
    (opens : Opens w c r next)
    (wired : w.Wired c) :
    Transferring w c r next := by
  obtain ⟨tcp, opening, pieces, connects, client, _, trace, _⟩ :=
    opens.started.connects
  refine ⟨opens.started.active, ?_, ?_, opens.started.fields, ?_, ?_⟩
  · rw [opens.started.config]
  · rw [client]
    cases connects with
    | reuses connected _ _ =>
        exact wired connected
    | opens _ _ _ connection _ _ =>
        exact connection ▸ rfl
  · rw [opens.started.request]
  · rw [trace, List.append_assoc]
    exact ⟨_, rfl⟩

/-- Sending has gone on from a place, up to which the streamers have been made. -/
theorem Paused.atPlace
    {index : Nat}
    (paused : Paused now c r index next)
    (form : (now.requests r).form = (w.requests r).form)
    (takesInput : now.config.takesInput = w.config.takesInput)
    (passed :
      ∀ place item,
        (w.requests r).form[place]? = some item →
        item.isImmediate = false →
        place < index →
        Passed w now r place)
    (ahead :
      ∀ place,
        index ≤ place →
        ((now.requests r).streaming place).given =
          ((w.requests r).streaming place).given) :
    AtPlace w c r ((formPlan r).stop (w.requests r).form index) next := by
  have between :
      ∀ place item,
        (w.requests r).form[place]? = some item →
        item.isImmediate = false →
        index ≤ place →
        ¬ ∀ last ∈ (formPlan r).stop (w.requests r).form index, place < last := by
    intro place item isItem streams behind before
    have whole :=
      ItemUpload.Plan.isStreamed_of_before_stop isItem behind before
    simp [formPlan, streams] at whole
  unfold Paused at paused
  rw [form, takesInput] at paused
  cases stops : (formPlan r).stop (w.requests r).form index with
  | none =>
      rw [stops] at paused between
      obtain ⟨field, streaming, completed⟩ := paused
      refine ⟨field, by simp, fun _ => completed, ?_, by simp⟩
      intro place item isItem streams _
      unfold Passed
      rw [streaming]
      refine passed place item isItem streams (Nat.lt_of_not_le fun behind => ?_)
      exact between place item isItem streams behind (by simp)
  | some stop =>
      rw [stops] at paused between
      obtain ⟨field, streaming, completed⟩ := paused
      have behind := (ItemUpload.Plan.isStreamed_of_stop stops).1
      refine ⟨field, ?_, by simp, ?_, ?_⟩
      · rintro place ⟨⟩
        rw [streaming, Function.update_self]
        exact ⟨rfl, rfl⟩
      · intro place item isItem streams before
        unfold Passed
        rw [streaming]
        by_cases here : place = stop
        · rw [here, Function.update_self]
        · rw [Function.update_of_ne here]
          have isBefore : place < stop := by
            have notBehind := before stop rfl
            omega
          refine passed place item isItem streams
            (Nat.lt_of_not_le fun after => ?_)
          refine between place item isItem streams after ?_
          rintro _ ⟨⟩
          exact isBefore
      · rintro _ ⟨⟩ place isAhead
        rw [streaming, Function.update_of_ne (by omega)]
        exact ahead place (by omega)

/-- The transfer of a form starts with the items up to the first streamed one. -/
theorem Opens.stage
    (reads : Nat → Data)
    (opens : Opens w c r next)
    (wired : w.Wired c)
    (streams : (w.requests r).formStreaming = true) :
    Stage reads w c r ((formPlan r).stop (w.requests r).form 0) [] next where
  toTransferring := opens.transferring wired
  toAtPlace :=
    (opens.paused streams).atPlace rfl rfl (fun _ _ _ _ before => by omega)
      fun _ _ => rfl
  body := by
    refine ⟨_, ?_, .start⟩
    rw [opens.wrote.bodySent wired, passage_formPlan]
    simp [startPieces, streams]

theorem AtPlace.undisturbed
    {position : Option Nat}
    (atPlace : AtPlace w c r position now)
    (undisturbed : Undisturbed now c r next) :
    AtPlace w c r position next where
  field := undisturbed.formField.trans atPlace.field
  runs := by
    rw [undisturbed.streaming]
    exact atPlace.runs
  completed isOver := undisturbed.completed.trans (atPlace.completed isOver)
  passed := by
    unfold Passed
    rw [undisturbed.streaming]
    exact atPlace.passed
  ahead := by
    rw [undisturbed.streaming]
    exact atPlace.ahead

theorem Stage.form
    {position : Option Nat}
    {sofar : Data}
    (stage : Stage reads w c r position sofar now) :
    (now.requests r).form = (w.requests r).form := by
  rw [stage.fields]
  rfl

/-- The position of a stage is the one of `_form_field`. -/
theorem Stage.position_eq
    {position : Option Nat}
    {sofar : Data}
    {item : Nat}
    (stage : Stage reads w c r position sofar now)
    (field : (now.clients c).formField = item) :
    position = some item := by
  have isField := stage.field
  rw [field] at isField
  cases position with
  | none =>
      dsimp only at isField
      omega
  | some index =>
      dsimp only at isField
      rw [Int.ofNat_inj.mp isField]

/-- What an input event of the streamer does, that delivers data. -/
theorem Stage.delivers
    {index : Nat}
    {sofar : Data}
    (stage : Stage reads w c r (some index) sofar now)
    (data : Data) :
    accept (.streamData r index data) none now =
        some (.next (now.write c (.formData r data)) []) ∧
      Stage reads w c r (some index) (sofar ++ data)
        (now.write c (.formData r data)) := by
  obtain ⟨streamer, running⟩ := stage.runs index rfl
  obtain ⟨chunks, isSent, delivered⟩ := stage.body
  constructor
  · simp only [accept, running, streamer]
  · obtain ⟨transferring, more⟩ :=
      stage.toTransferring.sent (by simp [Piece.req])
        (write_sent now c r (.formData r data))
    refine ⟨transferring, ?_, ?_⟩
    · have still := stage.toAtPlace
      rw [write_sent now c r]
      refine ⟨?_, ?_, ?_, ?_, ?_⟩
      · simpa [World.sent] using still.field
      · simpa [World.sent] using still.runs
      · simp
      · simpa [Passed, World.sent] using still.passed
      · simpa [World.sent] using still.ahead
    · refine ⟨chunks ++ [.formData r data], ?_, .data data delivered⟩
      rw [more, isSent, List.append_assoc]

/-- The client goes on behind an item that has finished. -/
def resuming (now : World) (c r index : Nat) : World :=
  (now.finishing r index).setClient c
    { (now.finishing r index).clients c with
      formField := ((now.finishing r index).clients c).formField + 1 }

/-- The state in which the client goes on. -/
structure Resuming (w : World) (c r index : Nat) (now next : World) : Prop where
  active : (next.clients c).request = some r
  field : (next.clients c).formField = ((index + 1 : Nat) : Int)
  form : (next.requests r).form = (w.requests r).form
  inside : index + 1 ≤ (next.requests r).form.length
  takesInput : next.config.takesInput = w.config.takesInput
  given :
    ∀ place,
      ((next.requests r).streaming place).given =
        ((now.requests r).streaming place).given

theorem Stage.resuming
    {index : Nat}
    {sofar : Data}
    (stage : Stage reads w c r (some index) sofar now) :
    Resuming w c r index now (now.resuming c r index) := by
  have form :
      ((now.resuming c r index).requests r).form = (w.requests r).form := by
    simpa [World.resuming, World.setClient, finishing, World.setRequest]
      using stage.form
  refine ⟨?_, ?_, form, ?_, stage.takesInput, ?_⟩
  · simpa [World.resuming, World.setClient, finishing, World.setRequest]
      using stage.active
  · simp [World.resuming, World.setClient, finishing, World.setRequest,
      stage.field]
  · obtain ⟨_, _, delivered⟩ := stage.body
    obtain ⟨first, _, rest, _, _, isItems, isLength, _⟩ := delivered.sent.reaches
    rw [form, isItems, List.length_append, List.length_cons, isLength]
    omega
  · intro place
    by_cases here : place = index <;>
      simp [World.resuming, World.setClient, finishing, World.setRequest, here]

theorem Stage.finish_eq
    {index : Nat}
    {sofar : Data}
    (stage : Stage reads w c r (some index) sofar now) :
    accept (.streamFinish r index none) none now =
      some (((now.resuming c r index).sendForm c).before fun w => .next w []) := by
  obtain ⟨streamer, running⟩ := stage.runs index rfl
  simp only [accept, running, streamer, World.resuming, finishing,
    formFileComplete]

/-- The items behind a streamed one are sent. -/
theorem Stage.resumes
    {index : Nat}
    (stage : Stage reads w c r (some index) (reads index) now) :
    ((now.resuming c r index).sendForm c).Post
      (Stage reads w c r ((formPlan r).stop (w.requests r).form (index + 1)) [])
      (fun _ => False) (fun _ => True) := by
  have resuming := stage.resuming
  obtain ⟨chunks, isSent, delivered⟩ := stage.body
  refine (sendForm_pauses resuming.active resuming.field resuming.inside).imp ?_
    (fun _ => id) (fun _ => id)
  rintro next ⟨paused, isNext⟩
  unfold SentForm at isNext
  have fromBefore :
      ∀ (place : Int) (queue : Nat) (streams : Nat → Streaming) (is : Bool)
        (pieces : List Piece),
        (now.resuming c r index).sent c r place queue streams is pieces =
          now.sent c r place queue streams is pieces := by
    intro place queue streams is pieces
    simp [World.resuming, World.sent, World.setClient, finishing,
      World.setRequest]
  have behind :
      ∀ piece ∈ formStart r ((w.requests r).form.drop (index + 1)),
        piece.req = r ∧ ∀ other fields, piece ≠ .head other fields := by
    intro piece member
    have isStart :
        piece ∈
          startPieces r
            { form := (w.requests r).form.drop (index + 1)
              formStreaming := true } := by
      simpa [startPieces] using member
    exact notHead_of_startPieces isStart
  rw [fromBefore, resuming.form] at isNext
  obtain ⟨transferring, more⟩ := stage.toTransferring.sent behind isNext
  refine ⟨transferring, ?_, _, ?_, delivered.resume⟩
  · refine paused.atPlace resuming.form stage.takesInput ?_ ?_
    · intro place item isItem streams before
      unfold Passed
      rw [resuming.given]
      refine stage.passed place item isItem streams ?_
      rintro _ ⟨⟩
      omega
    · intro place isBehind
      rw [resuming.given]
      exact stage.ahead index rfl place (by omega)
  · rw [more, isSent, List.append_assoc, passage_formPlan]

/-- A form cannot go on only if the input of a later item has been given away. -/
theorem Stage.not_fault
    {index : Nat}
    {sofar : Data}
    (stage : Stage reads w c r (some index) sofar now)
    (kept :
      ∀ place item,
        (w.requests r).form[place]? = some item →
        item.isImmediate = false →
        ((w.requests r).streaming place).given = false)
    (reason : Fault) :
    (now.resuming c r index).sendForm c ≠ .fault reason := by
  intro executed
  have resuming := stage.resuming
  have isForm := sendForm_eq resuming.active resuming.field resuming.inside
  rw [executed, resuming.form] at isForm
  dsimp only at isForm
  rcases streamed_cases ((w.requests r).form.drop (index + 1)) with
    none | ⟨name, mimeType, filename, rest, shape⟩
  · rw [none] at isForm
    cases isForm
  · rw [shape, resuming.given] at isForm
    dsimp only at isForm
    have stops :
        (formPlan r).stop (w.requests r).form (index + 1) =
          some (index + 1 +
            (immediate ((w.requests r).form.drop (index + 1))).length) := by
      unfold ItemUpload.Plan.stop
      rw [back_formPlan, front_formPlan, shape]
    obtain ⟨isBehind, item, isItem, streams⟩ :=
      ItemUpload.Plan.isStreamed_of_stop stops
    rw [stage.ahead index rfl _ (by omega),
      kept _ item isItem (by simpa [formPlan] using streams)] at isForm
    cases isForm

/-- The transfer of a form stands somewhere. -/
theorem Transfers.stage
    {sofar : Data}
    (transfers : Transfers reads c r started now sofar)
    (opens : Opens w c r started)
    (wired : w.Wired c)
    (streams : (w.requests r).formStreaming = true) :
    ∃ position, Stage reads w c r position sofar now := by
  induction transfers with
  | start =>
      exact ⟨_, opens.stage reads wired streams⟩
  | undisturbed _ undisturbed inductionHypothesis =>
      obtain ⟨position, stage⟩ := inductionHypothesis
      obtain ⟨chunks, isSent, delivered⟩ := stage.body
      obtain ⟨transferring, same⟩ := stage.toTransferring.undisturbed undisturbed
      exact ⟨position, transferring, stage.toAtPlace.undisturbed undisturbed,
        chunks, same.trans isSent, delivered⟩
  | @delivers _ _ _ data _ _ _ field accepted inductionHypothesis =>
      obtain ⟨position, stage⟩ := inductionHypothesis
      obtain rfl := stage.position_eq field
      obtain ⟨isAccepted, delivered⟩ := stage.delivers data
      rw [isAccepted] at accepted
      cases accepted
      exact ⟨_, delivered⟩
  | finishes _ _ field accepted inductionHypothesis =>
      obtain ⟨position, stage⟩ := inductionHypothesis
      obtain rfl := stage.position_eq field
      have resumes := stage.resumes
      rw [stage.finish_eq, Option.some.injEq] at accepted
      obtain ⟨next, isNext, same⟩ := Straight.before_next accepted
      cases same
      rw [isNext] at resumes
      exact ⟨_, resumes⟩

/-- A request without a form sends nothing more of its body. -/
theorem Transfers.plain
    {sofar : Data}
    (transfers : Transfers reads c r started now sofar)
    (opens : Opens w c r started)
    (wired : w.Wired c)
    (noForm : (w.requests r).formStreaming = false) :
    Transferring w c r now ∧
      w.bodySent now r = bareBody r (w.requests r).toRequestFields := by
  induction transfers with
  | start =>
      refine ⟨opens.transferring wired, ?_⟩
      rw [opens.wrote.bodySent wired]
      simp [startPieces, noForm]
  | undisturbed _ undisturbed inductionHypothesis =>
      obtain ⟨transferring, same⟩ := inductionHypothesis.1.undisturbed undisturbed
      exact ⟨transferring, same.trans inductionHypothesis.2⟩
  | delivers _ streams _ _ inductionHypothesis
  | finishes _ streams _ _ inductionHypothesis =>
      rw [inductionHypothesis.1.fields] at streams
      have isStreaming : (w.requests r).formStreaming = true := streams
      rw [noForm] at isStreaming
      cases isStreaming

end Transfers

/-! ## The starts -/

/-- The fields that matter when the body of a redirected request is sent again. -/
structure SameBody (one two : RequestFields) : Prop where
  body : two.body = one.body
  form : two.form = one.form
  formStreaming : two.formStreaming = one.formStreaming
  followRedirect : two.followRedirect = one.followRedirect
  redirectionLimit : two.redirectionLimit = one.redirectionLimit

theorem SameBody.trans
    {one two three : RequestFields}
    (early : SameBody one two)
    (late : SameBody two three) :
    SameBody one three :=
  ⟨late.body.trans early.body, late.form.trans early.form,
    late.formStreaming.trans early.formStreaming,
    late.followRedirect.trans early.followRedirect,
    late.redirectionLimit.trans early.redirectionLimit⟩

/-- The request that a redirect leaves to be started again. -/
structure Hopped (one two : Request) : Prop where
  same : SameBody one.toRequestFields two.toRequestFields
  follows : one.followRedirect = true
  permitted : one.redirectionLimit ≠ 0
  counter : two.redirectionCounter = (one.redirectionCounter + 1) % 2 ^ 16
  within : two.redirectionCounter ≤ one.redirectionLimit
  streaming : two.streaming = one.streaming

theorem Hops.hopped
    {r c : Nat}
    {done before : World}
    (hops : Hops r c done before) :
    Hopped (done.requests r) (before.requests r) := by
  obtain ⟨redirects, notSeeOther, ⟨pool, timer, isLeft⟩, _⟩ := hops
  have within := redirects.within
  rw [isLeft, World.hopped, rewritten_request_of_ne notSeeOther, redirects.shape]
  simp only [setClient, setRequest, Function.update_self,
    Request.cleanupAfterRedirect, Request.redirectedTo, counted] at within ⊢
  exact ⟨⟨rfl, rfl, rfl, rfl, rfl⟩, redirects.follows, redirects.permitted, rfl,
    within, rfl⟩

theorem MayRedirectTimes.succ
    {n : Nat}
    {request : Request}
    (may : MayRedirectTimes n request)
    (follows : request.followRedirect = true)
    (permitted : request.redirectionLimit ≠ 0)
    (within :
      (request.redirectionCounter + n + 1) % 2 ^ 16 ≤ request.redirectionLimit) :
    MayRedirectTimes (n + 1) request := by
  intro k bounded
  by_cases earlier : k < n
  · exact may k earlier
  · obtain rfl : k = n := by omega
    exact ⟨follows, permitted, within⟩

/-- The request before its first start, or the n-th one after a redirect. -/
structure BeforeStart (first : World) (r n : Nat) (before : World) : Prop where
  takesInput : before.config.takesInput = first.config.takesInput
  same :
    SameBody (first.requests r).toRequestFields
      (before.requests r).toRequestFields
  counter :
    (before.requests r).redirectionCounter % 2 ^ 16 =
      ((first.requests r).redirectionCounter + n) % 2 ^ 16
  may : MayRedirectTimes n (first.requests r)
  passed :
    n ≠ 0 →
    (first.requests r).formStreaming = true →
    ∀ index item,
      (first.requests r).form[index]? = some item →
      item.isImmediate = false →
      Passed first before r index

/-- A start of the request. -/
structure Restart
    (first : World)
    (r n : Nat)
    (before : World)
    (d : Nat)
    (started : World) : Prop extends BeforeStart first r n before where
  opens : Opens before d r started
  wired : before.Wired d

section Starts

variable {first before started done next restarted : World} {c d e r n : Nat}
variable {sofar : Data}

theorem Transfers.transferring
    {reads : Nat → Data}
    (transfers : Transfers reads d r started done sofar)
    (opens : Opens before d r started)
    (wired : before.Wired d) :
    Transferring before d r done := by
  cases streams : (before.requests r).formStreaming with
  | false =>
      exact (transfers.plain opens wired streams).1
  | true =>
      obtain ⟨_, stage⟩ := transfers.stage opens wired streams
      exact stage.toTransferring

/-- A complete form has been sent to its end. -/
theorem Transfers.complete
    {reads : Nat → Data}
    (transfers : Transfers reads d r started done sofar)
    (opens : Opens before d r started)
    (wired : before.Wired d)
    (streams : (before.requests r).formStreaming = true)
    (complete : Complete done d r) :
    Stage reads before d r none sofar done := by
  obtain ⟨position, stage⟩ := transfers.stage opens wired streams
  have still : (done.requests r).formStreaming = true := by
    rw [stage.fields]
    exact streams
  have field := stage.field
  rw [complete.ended still] at field
  cases position with
  | none =>
      exact stage
  | some index =>
      dsimp only at field
      omega

/-- The transfer of a start is complete, and it is redirected. -/
theorem Restart.redirected
    {reads : Nat → Data}
    (restart : Restart first r n before d started)
    (transfers : Transfers reads d r started done sofar)
    (complete : Complete done d r)
    (hops : Hops r d done next) :
    BeforeStart first r (n + 1) next := by
  have transferring := transfers.transferring restart.opens restart.wired
  have hopped := hops.hopped
  have fields := transferring.fields
  have counter := restart.counter
  have sameDone :
      SameBody (first.requests r).toRequestFields
        (done.requests r).toRequestFields := by
    refine restart.same.trans ?_
    rw [fields]
    exact ⟨rfl, rfl, rfl, rfl, rfl⟩
  have isCounter :
      (next.requests r).redirectionCounter =
        ((first.requests r).redirectionCounter + n + 1) % 2 ^ 16 := by
    rw [hopped.counter, transferring.counter]
    omega
  refine ⟨?_, sameDone.trans hopped.same, ?_, ?_, ?_⟩
  · obtain ⟨_, _, _, sameInput⟩ := hops
    rw [sameInput, transferring.takesInput, restart.takesInput]
  · rw [isCounter, Nat.mod_mod]
    rfl
  · refine restart.may.succ ?_ ?_ ?_
    · rw [← sameDone.followRedirect]
      exact hopped.follows
    · rw [← sameDone.redirectionLimit]
      exact hopped.permitted
    · rw [← isCounter, ← sameDone.redirectionLimit]
      exact hopped.within
  · intro _ streams index item isItem isStreamed
    have stage := transfers.complete restart.opens restart.wired
      (restart.same.formStreaming.trans streams) complete
    rw [← restart.same.form] at isItem
    have passed := stage.passed index item isItem isStreamed (by simp)
    unfold Passed at passed ⊢
    rw [hopped.streaming, passed, restart.takesInput]

theorem BeforeStart.restart
    (beforeStart : BeforeStart first r n next)
    (wired : next.Wired e)
    (executed : next.clientRequest e r = .ok restarted) :
    Restart first r n next e restarted := by
  have opens := clientRequest_opens next e r
  rw [executed] at opens
  exact ⟨beforeStart, opens, wired⟩

/-- Every start is one of a request with the same body. -/
theorem Starts.restart
    {reads : Nat → Nat → Data}
    (starts : Starts reads r first c n before d started)
    (wired : first.Wired c) :
    Restart first r n before d started := by
  induction starts with
  | first executed =>
      have beforeStart : BeforeStart first r 0 first :=
        ⟨rfl, ⟨rfl, rfl, rfl, rfl, rfl⟩, rfl, fun _ none => by omega,
          fun notFirst => (notFirst rfl).elim⟩
      exact beforeStart.restart wired executed
  | again _ transfers complete hops wiredThere executed inductionHypothesis =>
      exact (inductionHypothesis.redirected transfers complete hops).restart
        wiredThere executed

/-- The data of the body when the items read this. -/
def knownBody (reads : Nat → Data) (r : Nat) (fields : RequestFields) :
    List Piece :=
  (bareBody r fields).flatMap Piece.parts ++
    if fields.formStreaming then
      (formPlan r).content Piece.parts reads 0 fields.form
    else
      []

/-- A complete transfer has sent the whole body. -/
theorem Restart.bodyData
    {reads : Nat → Data}
    (restart : Restart first r n before d started)
    (transfers : Transfers reads d r started done sofar)
    (complete : Complete done d r) :
    before.bodyData done r =
      knownBody reads r (first.requests r).toRequestFields := by
  have sameBare :
      bareBody r (before.requests r).toRequestFields =
        bareBody r (first.requests r).toRequestFields := by
    simp only [bareBody, restart.same.body]
  unfold World.bodyData knownBody
  cases streams : (first.requests r).formStreaming with
  | false =>
      have noForm := restart.same.formStreaming.trans streams
      obtain ⟨_, isSent⟩ := transfers.plain restart.opens restart.wired noForm
      rw [isSent, sameBare]
      simp
  | true =>
      have isForm := restart.same.formStreaming.trans streams
      obtain ⟨chunks, isSent, delivered⟩ :=
        (transfers.complete restart.opens restart.wired isForm complete).body
      have covers := delivered.covers (cuts_formPlan r)
      unfold ItemUpload.Plan.Covers at covers
      rw [isSent, sameBare, List.flatMap_append, covers, restart.same.form]
      simp

/-- An item that is being streamed delivers what its input reads, and finishes. -/
theorem Stage.exists_next
    {reads : Nat → Data}
    {now : World}
    {index : Nat}
    (stage : Stage reads before d r (some index) [] now)
    (transfers : Transfers reads d r started now [])
    (streams : (before.requests r).formStreaming = true)
    (kept :
      ∀ place item,
        (before.requests r).form[place]? = some item →
        item.isImmediate = false →
        ((before.requests r).streaming place).given = false) :
    ∃ next,
      Transfers reads d r started next [] ∧
        Stage reads before d r
          ((formPlan r).stop (before.requests r).form (index + 1)) [] next := by
  have isForm :
      ∀ {position sofar later},
        Stage reads before d r position sofar later →
        (later.requests r).formStreaming = true := by
    intro _ _ _ stage
    rw [stage.fields]
    exact streams
  obtain ⟨accepted, delivered⟩ := stage.delivers (reads index)
  have read := transfers.delivers (isForm stage) stage.field accepted
  rw [List.nil_append] at read delivered
  have resumes := delivered.resumes
  have finish := delivered.finish_eq
  have noFault := delivered.not_fault kept
  revert resumes finish noFault
  generalize World.sendForm _ d = straight
  intro resumes finish noFault
  cases straight with
  | ok next =>
      exact ⟨next, read.finishes (isForm delivered) delivered.field finish, resumes⟩
  | raise next =>
      exact resumes.elim
  | fault reason =>
      exact (noFault reason rfl).elim

/-- A form is transferred to its end, if every input is still there. -/
theorem Transfers.exists_complete
    (reads : Nat → Data)
    (opens : Opens before d r started)
    (wired : before.Wired d)
    (streams : (before.requests r).formStreaming = true)
    (kept :
      ∀ place item,
        (before.requests r).form[place]? = some item →
        item.isImmediate = false →
        ((before.requests r).streaming place).given = false) :
    ∃ done, Transfers reads d r started done [] ∧ Complete done d r := by
  suffices goesOn :
      ∀ left position now,
        Transfers reads d r started now [] →
        Stage reads before d r position [] now →
        (∀ index ∈ position, (before.requests r).form.length ≤ index + left) →
        ∃ done, Transfers reads d r started done [] ∧ Complete done d r from
    goesOn (before.requests r).form.length _ started .start
      (opens.stage reads wired streams) fun index _ => Nat.le_add_left _ _
  -- on the number of items behind the one that is being streamed
  intro left position now transfers stage bounded
  induction left generalizing position now with
  | zero =>
      cases position with
      | none =>
          exact ⟨now, transfers, stage.completed rfl, fun _ => stage.field⟩
      | some index =>
          have inside := stage.resuming.inside
          rw [stage.resuming.form] at inside
          have isOver := bounded index rfl
          omega
  | succ left inductionHypothesis =>
      cases position with
      | none =>
          exact ⟨now, transfers, stage.completed rfl, fun _ => stage.field⟩
      | some index =>
          obtain ⟨next, transferred, isNext⟩ :=
            stage.exists_next transfers streams kept
          refine inductionHypothesis _ next transferred isNext fun later stops => ?_
          have behind := (ItemUpload.Plan.isStreamed_of_stop stops).1
          have isOver := bounded index rfl
          omega

/-- A transferred request may be redirected. -/
theorem Transferring.exists_hops
    (transferring : Transferring before d r done)
    (follows : (done.requests r).followRedirect = true)
    (permitted : (done.requests r).redirectionLimit ≠ 0)
    (within :
      ((done.requests r).redirectionCounter + 1) % 2 ^ 16 ≤
        (done.requests r).redirectionLimit) :
    ∃ answered request,
      Undisturbed done d r answered ∧
        Hops r d answered (ready done.config.takesInput request) ∧
          request.client = none ∧ request.check = none := by
  generalize isAnswer :
    ({ code := 302, location := some { host := "elsewhere" } } : Response) =
      answer
  generalize isAnswered :
    done.setClient d { done.clients d with response := some answer } = answered
  have undisturbed : Undisturbed done d r answered := by
    refine ⟨?_, ?_, ?_, ?_, ?_, ?_, ?_, ?_, [], ?_, rfl⟩ <;>
      simp [← isAnswered, setClient]
  generalize isAnalyzed :
    (answered.setRequest r
        ((counted (answered.requests r)).redirectedTo
          { host := "elsewhere" })).setClient d
      { answered.clients d with inRedirect := true } = analyzed
  have notSeeOther : answer.code ≠ 303 := by
    rw [← isAnswer]
    decide
  have redirects :
      Redirects answered d r answer { host := "elsewhere" } analyzed := by
    refine ⟨?_, ?_, ?_, ?_, ?_, ?_, ?_, isAnalyzed.symm⟩
    · exact undisturbed.request.trans transferring.active
    · simp [← isAnswered, setClient]
    · rw [undisturbed.fields]
      exact follows
    · rw [← isAnswer]
      decide
    · rw [← isAnswer]
    · rw [undisturbed.fields]
      exact permitted
    · simp only [counted, undisturbed.fields, undisturbed.counter]
      exact within
  have shape :
      analyzed.hopped d r answer =
        ((counted (answered.requests r)).redirectedTo
          { host := "elsewhere" }).cleanupAfterRedirect := by
    rw [hopped, rewritten_request_of_ne notSeeOther, ← isAnalyzed]
    simp [setClient, setRequest]
  refine ⟨answered, analyzed.hopped d r answer, undisturbed,
    .follows redirects notSeeOther (LeftAs.refl _) ?_, ?_, ?_⟩
  · exact undisturbed.takesInput.symm
  · rw [shape]
    rfl
  · rw [shape]
    simp [Request.check, Request.cleanupAfterRedirect, Request.redirectedTo,
      redirectUri]

/-- A transfer of the first start, and then one of every start. -/
theorem Starts.exists_transfer
    {reads : Nat → Nat → Data}
    {firstStarted firstDone : World}
    (starts : Starts reads r first c n before d started)
    (wired : first.Wired c)
    (executed : first.clientRequest c r = .ok firstStarted)
    (transfers : Transfers (reads 0) c r firstStarted firstDone sofar)
    (complete : Complete firstDone c r)
    (streams : (first.requests r).formStreaming = true)
    (keepsInput : first.config.takesInput = false) :
    ∃ done last, Transfers (reads n) d r started done last ∧ Complete done d r := by
  have restart := starts.restart wired
  cases starts with
  | first executedThere =>
      rw [executed] at executedThere
      cases executedThere
      exact ⟨firstDone, sofar, transfers, complete⟩
  | @again n =>
      obtain ⟨done, transferred⟩ :=
        Transfers.exists_complete (reads (n + 1)) restart.opens restart.wired
          (restart.same.formStreaming.trans streams)
          fun place item isItem isStreamed => by
            rw [restart.same.form] at isItem
            rw [restart.passed (by omega) streams place item isItem isStreamed]
            exact keepsInput
      exact ⟨done, [], transferred⟩

/-- If every hop sends the body, the next one starts the request. -/
theorem ResendsBody.exists_again
    {reads : Nat → Nat → Data}
    {firstDone : World}
    (resends : ResendsBody reads r first c firstDone)
    (starts : Starts reads r first c n before d started)
    (wired : first.Wired c)
    (transfers : Transfers (reads n) d r started done sofar)
    (complete : Complete done d r)
    (may : MayRedirectTimes (n + 1) (first.requests r)) :
    ∃ next restarted, Starts reads r first c (n + 1) next 0 restarted := by
  have restart := starts.restart wired
  have transferring := transfers.transferring restart.opens restart.wired
  have counter := restart.counter
  obtain ⟨follows, permitted, within⟩ := may n (by omega)
  have isCounter :
      ((done.requests r).redirectionCounter + 1) % 2 ^ 16 =
        ((first.requests r).redirectionCounter + n + 1) % 2 ^ 16 := by
    rw [transferring.counter]
    omega
  have sameDone :
      SameBody (first.requests r).toRequestFields
        (done.requests r).toRequestFields := by
    refine restart.same.trans ?_
    rw [transferring.fields]
    exact ⟨rfl, rfl, rfl, rfl, rfl⟩
  obtain ⟨answered, request, undisturbed, hops, unlinked, checked⟩ :=
    transferring.exists_hops (sameDone.followRedirect.trans follows)
      (sameDone.redirectionLimit ▸ permitted)
      (by rw [isCounter, sameDone.redirectionLimit]; exact within)
  have stillComplete : Complete answered d r := by
    refine ⟨undisturbed.completed.trans complete.completed, fun streams => ?_⟩
    rw [undisturbed.formField]
    refine complete.ended ?_
    rw [← undisturbed.fields]
    exact streams
  have closed : (ready done.config.takesInput request).Wired 0 := by
    rintro ⟨⟩
  have transferred := transfers.undisturbed undisturbed
  have noFault := resends.starts starts transferred stillComplete hops closed
  have noRefusal := ready_notRefused done.config.takesInput unlinked checked r
  cases executed : (ready done.config.takesInput request).clientRequest 0 r with
  | ok restarted =>
      exact ⟨_, restarted,
        starts.again transferred stillComplete hops closed executed⟩
  | raise next =>
      exact (noRefusal next executed).elim
  | fault reason =>
      exact (noFault reason executed).elim

end Starts

/-- The first item that is not sent at once. -/
theorem exists_streamed
    {form : List FormItem}
    (notNone : streamed form ≠ []) :
    ∃ item,
      form[(immediate form).length]? = some item ∧ item.isImmediate = false := by
  have stops :
      (formPlan 0).stop form 0 = some (0 + (immediate form).length) := by
    unfold ItemUpload.Plan.stop
    rw [List.drop_zero, back_formPlan, front_formPlan]
    cases shape : streamed form with
    | nil =>
        exact (notNone shape).elim
    | cons _ _ =>
        rfl
  obtain ⟨_, item, isItem, streams⟩ := ItemUpload.Plan.isStreamed_of_stop stops
  rw [Nat.zero_add] at isItem
  exact ⟨item, isItem, by simpa [formPlan] using streams⟩

theorem streamed_ne_nil
    {form : List FormItem}
    {item : FormItem}
    (member : item ∈ form)
    (isStreamed : item.isImmediate = false) :
    streamed form ≠ [] := by
  unfold streamed
  rw [ne_eq, List.dropWhile_eq_nil_iff]
  intro all
  rw [all item member] at isStreamed
  cases isStreamed

section Equivalence

variable {reads : Nat → Nat → Data} {w started done : World} {c r : Nat}
variable {sofar : Data}

/-- A streamed file is sent again only with an input of its own. -/
theorem Restart.keepsInput
    {before restarted : World}
    {n d : Nat}
    {item : FormItem}
    (restart : Restart w r (n + 1) before d restarted)
    (streams : (w.requests r).formStreaming = true)
    (member : item ∈ (w.requests r).form)
    (isStreamed : item.isImmediate = false) :
    w.config.takesInput = false := by
  have notNone := streamed_ne_nil member isStreamed
  obtain ⟨first, isFirst, firstStreamed⟩ := exists_streamed notNone
  refine Bool.eq_false_iff.mpr fun takes => restart.opens.wrote.fresh ?_
  refine ⟨restart.same.formStreaming.trans streams, ?_, ?_⟩
  · rw [restart.same.form]
    exact notNone
  · rw [restart.same.form,
      restart.passed (by omega) streams _ first isFirst firstStreamed]
    exact takes

/-- If every hop sends the body, there are all the starts that there may be. -/
theorem ResendsBody.exists_starts
    (resends : ResendsBody reads r w c done)
    (wired : w.Wired c)
    (executed : w.clientRequest c r = .ok started)
    (transferred : Transfers (reads 0) c r started done sofar)
    (complete : Complete done c r)
    (streams : (w.requests r).formStreaming = true)
    (keepsInput : w.config.takesInput = false)
    (n : Nat)
    (may : MayRedirectTimes n (w.requests r)) :
    ∃ before d restarted, Starts reads r w c n before d restarted := by
  induction n with
  | zero =>
      exact ⟨w, c, started, .first executed⟩
  | succ n inductionHypothesis =>
      obtain ⟨before, d, restarted, starts⟩ :=
        inductionHypothesis fun k bounded => may k (by omega)
      obtain ⟨last, _, transfers, isComplete⟩ :=
        starts.exists_transfer wired executed transferred complete streams
          keepsInput
      obtain ⟨next, again, startsAgain⟩ :=
        resends.exists_again starts wired transfers isComplete may
      exact ⟨next, 0, again, startsAgain⟩

/-- If every hop sends the body, every input is read again as it was. -/
theorem ResendsBody.rereads
    {index : Nat}
    {item : FormItem}
    (resends : ResendsBody reads r w c done)
    (wired : w.Wired c)
    (executed : w.clientRequest c r = .ok started)
    (transferred : Transfers (reads 0) c r started done sofar)
    (complete : Complete done c r)
    (streams : (w.requests r).formStreaming = true)
    (isItem : (w.requests r).form[index]? = some item)
    (isStreamed : item.isImmediate = false) :
    Rereads w.config.takesInput reads (w.requests r) index := by
  intro n may
  have firstStart : Starts reads r w c 0 w c started := .first executed
  have keepsInput : w.config.takesInput = false := by
    have mayOnce : MayRedirectTimes (0 + 1) (w.requests r) :=
      fun k bounded => may k (by omega)
    obtain ⟨_, _, starts⟩ :=
      resends.exists_again firstStart wired transferred complete mayOnce
    exact (starts.restart wired).keepsInput streams
      (List.mem_of_getElem? isItem) isStreamed
  obtain ⟨before, d, restarted, starts⟩ :=
    resends.exists_starts wired executed transferred complete streams keepsInput
      (n + 1) may
  obtain ⟨last, _, transfers, isComplete⟩ :=
    starts.exists_transfer wired executed transferred complete streams keepsInput
  have same := resends.same starts transfers isComplete
  rw [(starts.restart wired).bodyData transfers isComplete,
    (firstStart.restart wired).bodyData transferred complete] at same
  simp only [knownBody, streams, ↓reduceIte] at same
  have sameReads :=
    ItemUpload.Plan.content_injective (cuts_formPlan r)
      (List.append_cancel_left same) index item isItem
      (by simp [formPlan, isStreamed])
  rw [Nat.zero_add] at sameReads
  exact ⟨keepsInput, sameReads⟩

section Rereading

variable
  (rereads :
    (w.requests r).formStreaming = true →
    ∀ index item,
      (w.requests r).form[index]? = some item →
      item.isImmediate = false →
      Rereads w.config.takesInput reads (w.requests r) index)

include rereads

/-- No input has been given away before a start. -/
theorem BeforeStart.kept
    {before : World}
    {n : Nat}
    (beforeStart : BeforeStart w r (n + 1) before)
    (streams : (before.requests r).formStreaming = true) :
    ∀ place item,
      (before.requests r).form[place]? = some item →
      item.isImmediate = false →
      ((before.requests r).streaming place).given = false := by
  intro place item isItem isStreamed
  have streamsFirst := beforeStart.same.formStreaming.symm.trans streams
  rw [beforeStart.same.form] at isItem
  rw [beforeStart.passed (by omega) streamsFirst place item isItem isStreamed]
  exact (rereads streamsFirst place item isItem isStreamed n beforeStart.may).1

/-- The request can be started once more. -/
theorem BeforeStart.not_fault
    {before : World}
    {n : Nat}
    (beforeStart : BeforeStart w r (n + 1) before)
    (d : Nat)
    (reason : Fault) :
    before.clientRequest d r ≠ .fault reason := by
  intro isFault
  have wrote := clientRequest_wrote before d r
  rw [isFault] at wrote
  obtain ⟨streams, notNone, isGiven⟩ := wrote
  obtain ⟨item, isItem, isStreamed⟩ := exists_streamed notNone
  rw [beforeStart.kept rereads streams _ item isItem isStreamed] at isGiven
  cases isGiven

/-- The body of every start is the one of the first start. -/
theorem Restart.sameBody
    {before restarted last : World}
    {n d : Nat}
    {rest : Data}
    (restart : Restart w r n before d restarted)
    (transfers : Transfers (reads n) d r restarted last rest)
    (complete : Complete last d r) :
    before.bodyData last r =
      knownBody (reads 0) r (w.requests r).toRequestFields := by
  rw [restart.bodyData transfers complete]
  unfold knownBody
  congr 1
  split
  · rename_i streams
    refine ItemUpload.Plan.content_congr fun place item isItem isStreamed => ?_
    have streamed : item.isImmediate = false := by
      simpa [formPlan] using isStreamed
    rw [Nat.zero_add]
    cases n with
    | zero =>
        rfl
    | succ n =>
        exact (rereads streams place item isItem streamed n restart.may).2
  · rfl

/-- If every input is read again as it was, every hop sends the body. -/
theorem resendsBody_of_rereads
    (wired : w.Wired c)
    (executed : w.clientRequest c r = .ok started)
    (transferred : Transfers (reads 0) c r started done sofar)
    (complete : Complete done c r) :
    ResendsBody reads r w c done where
  starts starts transfers isComplete hops _ :=
    ((starts.restart wired).redirected transfers isComplete hops).not_fault
      rereads _
  resumes := by
    intro n d item before restarted last starts transfers streams field reason
      accepted
    have restart := starts.restart wired
    have fields := (transfers.transferring restart.opens restart.wired).fields
    have isForm : (before.requests r).formStreaming = true := by
      rw [fields] at streams
      exact streams
    obtain ⟨position, stage⟩ :=
      transfers.stage restart.opens restart.wired isForm
    obtain rfl := stage.position_eq field
    rw [stage.finish_eq, Option.some.injEq] at accepted
    rcases Straight.before_fault accepted with isFault | ⟨_, _, never⟩
    · exact stage.not_fault (restart.kept rereads isForm) reason isFault
    · cases never
  same starts transfers isComplete := by
    have firstStart : Starts reads r w c 0 w c started := .first executed
    rw [(starts.restart wired).sameBody rereads transfers isComplete,
      (firstStart.restart wired).sameBody rereads transferred complete]

end Rereading

/-- The body is sent again exactly if every streamed input can be read again. -/
theorem resendsBody_iff
    (wired : w.Wired c)
    (executed : w.clientRequest c r = .ok started)
    (transferred : Transfers (reads 0) c r started done sofar)
    (complete : Complete done c r) :
    ResendsBody reads r w c done ↔
      ((w.requests r).formStreaming = true →
        ∀ index item,
          (w.requests r).form[index]? = some item →
          item.isImmediate = false →
          Rereads w.config.takesInput reads (w.requests r) index) := by
  constructor
  · intro resends streams index item isItem isStreamed
    exact resends.rereads wired executed transferred complete streams isItem
      isStreamed
  · intro rereads
    exact resendsBody_of_rereads rereads wired executed transferred complete

end Equivalence

/-- A request with a form of these items. -/
def posting (form : List FormItem) : Request :=
  { method := .post
    uri := some { scheme := "http", host := "here" }
    form := form
    formStreaming := true }

/-- A form with an item of each kind. -/
def mixedForm : List FormItem :=
  [.field "name" "x", .embeddedFile "file" "data" "text/plain" "f.txt",
    .file "other" "text/plain" "g.txt"]

/-- The form of a fresh request is transferred. -/
theorem exists_transferred
    (reads : Nat → Data)
    (takesInput : Bool)
    (form : List FormItem) :
    ∃ started done,
      (ready takesInput (posting form)).clientRequest 0 0 = .ok started ∧
        Transfers reads 0 0 started done [] ∧ Complete done 0 0 := by
  have closed : (ready takesInput (posting form)).Wired 0 := by
    rintro ⟨⟩
  have opens := clientRequest_opens (ready takesInput (posting form)) 0 0
  have wrote := clientRequest_wrote (ready takesInput (posting form)) 0 0
  have noRefusal :
      ∀ next, (ready takesInput (posting form)).clientRequest 0 0 ≠ .raise next :=
    ready_notRefused takesInput rfl rfl 0
  cases executed : (ready takesInput (posting form)).clientRequest 0 0 with
  | ok started =>
      rw [executed] at opens
      obtain ⟨done, transfers, complete⟩ :=
        Transfers.exists_complete reads opens closed rfl
          fun _ _ _ _ => rfl
      exact ⟨started, done, rfl, transfers, complete⟩
  | raise next =>
      exact (noRefusal next executed).elim
  | fault reason =>
      rw [executed] at wrote
      cases wrote.2.2

/-- An input that stays where it is, and reads the same each time. -/
theorem resendsBody_mixed :
    ∃ started done,
      (ready false (posting mixedForm)).clientRequest 0 0 = .ok started ∧
        Transfers (fun _ => ['a']) 0 0 started done [] ∧
        Complete done 0 0 ∧
        ResendsBody (fun _ _ => ['a']) 0 (ready false (posting mixedForm)) 0
          done := by
  obtain ⟨started, done, executed, transfers, complete⟩ :=
    exists_transferred (fun _ => ['a']) false mixedForm
  have closed : (ready false (posting mixedForm)).Wired 0 := by
    rintro ⟨⟩
  refine ⟨started, done, executed, transfers, complete,
    (resendsBody_iff closed executed transfers complete).mpr ?_⟩
  intro _ _ _ _ _ _ _
  exact ⟨rfl, rfl⟩

/-- An input that can be read once. -/
def readsOnce (n _item : Nat) : Data :=
  if n = 0 then ['a'] else []

/-- It is not sent again. -/
theorem exists_not_resendsBody (takesInput : Bool) :
    ∃ started done,
      (ready takesInput (posting mixedForm)).clientRequest 0 0 = .ok started ∧
        Transfers (readsOnce 0) 0 0 started done [] ∧
        Complete done 0 0 ∧
        ¬ ResendsBody readsOnce 0 (ready takesInput (posting mixedForm)) 0
            done := by
  obtain ⟨started, done, executed, transfers, complete⟩ :=
    exists_transferred (readsOnce 0) takesInput mixedForm
  have closed : (ready takesInput (posting mixedForm)).Wired 0 := by
    rintro ⟨⟩
  refine ⟨started, done, executed, transfers, complete, fun resends => ?_⟩
  have isItem :
      mixedForm[2]? = some (.file "other" "text/plain" "g.txt") := rfl
  have mayOnce : MayRedirectTimes (0 + 1) (posting mixedForm) := by
    unfold MayRedirectTimes
    decide
  have rereads :=
    resends.rereads closed executed transfers complete rfl isItem rfl 0 mayOnce
  exact absurd rereads.2 (by decide)

/-- So it is whether the constructor of the streamer takes the input or not. -/
theorem readsOnce_not_resendsBody :
    (∃ started done,
        (ready true (posting mixedForm)).clientRequest 0 0 = .ok started ∧
          Transfers (readsOnce 0) 0 0 started done [] ∧
          Complete done 0 0 ∧
          ¬ ResendsBody readsOnce 0 (ready true (posting mixedForm)) 0 done) ∧
      ∃ started done,
        (ready false (posting mixedForm)).clientRequest 0 0 = .ok started ∧
          Transfers (readsOnce 0) 0 0 started done [] ∧
          Complete done 0 0 ∧
          ¬ ResendsBody readsOnce 0 (ready false (posting mixedForm)) 0 done :=
  ⟨exists_not_resendsBody true, exists_not_resendsBody false⟩

end World

end UniEventHttp.ClientSide
