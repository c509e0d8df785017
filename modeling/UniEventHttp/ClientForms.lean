import Mathlib.Data.List.TakeWhile
import UniEventHttp.ClientState

namespace UniEventHttp.ClientSide

/-!
# Sending a form

`send_form` sends fields and embedded files until it comes to a streamed file,
which it starts, or to the end, where it writes the trailer.  Here this loop is
described by the items that it passes.
-/

/-- The item is sent as a whole by its `start`. -/
def FormItem.isImmediate : FormItem → Bool
  | .field _ _ => true
  | .embeddedFile _ _ _ _ => true
  | .file _ _ _ => false

/-- What `start` writes: the header of the item, and what the item contains. -/
def FormItem.pieces (r : Nat) : FormItem → List Piece
  | .field name content => [.formField r name content]
  | .embeddedFile name content mimeType filename =>
      [.formFile r name filename mimeType, .formData r content.toList]
  | .file name mimeType filename => [.formFile r name filename mimeType]

/-- The items before the first streamed file. -/
def immediate (form : List FormItem) : List FormItem :=
  form.takeWhile FormItem.isImmediate

/-- The first streamed file, and all behind it. -/
def streamed (form : List FormItem) : List FormItem :=
  form.dropWhile FormItem.isImmediate

theorem immediate_append_streamed (form : List FormItem) :
    immediate form ++ streamed form = form :=
  List.takeWhile_append_dropWhile

theorem isImmediate_of_immediate
    {form : List FormItem}
    {item : FormItem}
    (member : item ∈ immediate form) :
    item.isImmediate = true :=
  List.mem_takeWhile_imp member

/-- What is not sent at once begins with a streamed file. -/
theorem streamed_cases (form : List FormItem) :
    streamed form = [] ∨
      ∃ name mimeType filename rest,
        streamed form = .file name mimeType filename :: rest := by
  cases shape : streamed form with
  | nil =>
      exact Or.inl rfl
  | cons item rest =>
      have first : item.isImmediate = false := by
        have stopped := List.head?_dropWhile_not FormItem.isImmediate form
        rw [show form.dropWhile FormItem.isImmediate = item :: rest from shape]
          at stopped
        exact stopped
      cases item with
      | file name mimeType filename =>
          exact Or.inr ⟨name, mimeType, filename, rest, rfl⟩
      | _ =>
          cases first

namespace World

theorem sent_self (w : World) (c r : Nat) :
    w.sent c r (w.clients c).formField (w.clients c).tcp.writeQueue
      (w.requests r).streaming (w.requests r).transferCompleted [] = w := by
  simp [sent]

/-- Sending twice is sending the pieces of both. -/
theorem sent_sent
    (w : World)
    (c r : Nat)
    (first second : Int)
    (early late : Nat)
    (before after : Nat → Streaming)
    (was is : Bool)
    (pieces more : List Piece) :
    (w.sent c r first early before was pieces).sent c r second late after is
        more =
      w.sent c r second late after is (pieces ++ more) := by
  simp [sent]

theorem write_sent (w : World) (c r : Nat) (piece : Piece) :
    w.write c piece =
      w.sent c r (w.clients c).formField ((w.clients c).tcp.writeQueue + 1)
        (w.requests r).streaming (w.requests r).transferCompleted [piece] := by
  cases connection : (w.clients c).tcp.connection <;>
    simp [World.write, sent, setTcp, setClient, emit, wroteOn, connection]

/-- A state in which items have been sent from the current one on. -/
def passed (w : World) (c r : Nat) (items : List FormItem) : World :=
  let pieces := items.flatMap (FormItem.pieces r)
  w.sent c r ((w.clients c).formField + items.length)
    ((w.clients c).tcp.writeQueue + pieces.length)
    (w.requests r).streaming (w.requests r).transferCompleted pieces

theorem passed_nil (w : World) (c r : Nat) : w.passed c r [] = w := by
  simpa [passed] using sent_self w c r

theorem passed_cons
    (w : World)
    (c r : Nat)
    (item : FormItem)
    (rest : List FormItem) :
    (w.passed c r [item]).passed c r rest = w.passed c r (item :: rest) := by
  simp only [passed, sent_sent, List.flatMap_cons, List.flatMap_nil,
    List.append_nil, List.length_append, List.length_cons, List.length_nil]
  congr 1
  · simp [sent]
    omega
  · simp [sent]
    omega
  · simp [sent]
  · simp [sent]

/-- An item that is not streamed is passed. -/
theorem sendItems_cons
    (w : World)
    (c r : Nat)
    {item : FormItem}
    (rest : List FormItem)
    (isImmediate : item.isImmediate = true) :
    w.sendItems c r (item :: rest) = (w.passed c r [item]).sendItems c r rest := by
  cases item with
  | field name content =>
      simp only [sendItems, write_sent w c r]
      congr 1
      simp [passed, sent, setClient, FormItem.pieces]
  | embeddedFile name content mimeType filename =>
      simp only [sendItems, write_sent w c r, write_sent (World.sent _ _ _ _ _ _ _ _) c r]
      congr 1
      simp [passed, sent, setClient, FormItem.pieces]
  | file name mimeType filename =>
      cases isImmediate

/-- Items that are not streamed are passed. -/
theorem sendItems_append
    (w : World)
    (c r : Nat)
    (items rest : List FormItem)
    (areImmediate : ∀ item ∈ items, item.isImmediate = true) :
    w.sendItems c r (items ++ rest) =
      (w.passed c r items).sendItems c r rest := by
  induction items generalizing w with
  | nil =>
      rw [passed_nil, List.nil_append]
  | cons item others inductionHypothesis =>
      rw [List.cons_append,
        sendItems_cons w c r _ (areImmediate item List.mem_cons_self),
        inductionHypothesis _ fun other member =>
          areImmediate other (List.mem_cons_of_mem _ member),
        passed_cons]

/-- The streamed file at the current position has been started. -/
def streaming
    (w : World)
    (c r : Nat)
    (name mimeType filename : String) :
    World :=
  let index := (w.clients c).formField.toNat
  w.sent c r (w.clients c).formField ((w.clients c).tcp.writeQueue + 1)
    (Function.update (w.requests r).streaming index
      { given := w.config.takesInput, streamer := some c, running := true })
    (w.requests r).transferCompleted [.formFile r name filename mimeType]

/-- The trailer of the form has been written. -/
def trailed (w : World) (c r : Nat) : World :=
  w.sent c r (-1) ((w.clients c).tcp.writeQueue + 1)
    (w.requests r).streaming true [.formFinish r]

/-- What `sendItems` comes to after the items that are sent at once. -/
theorem sendItems_streamed
    (w : World)
    (c r : Nat)
    (items : List FormItem) :
    w.sendItems c r (streamed items) =
      match streamed items with
      | .file name mimeType filename :: _ =>
          if ((w.requests r).streaming (w.clients c).formField.toNat).given then
            .fault .nullInput
          else
            .ok (w.streaming c r name mimeType filename)
      | _ => .ok w := by
  rcases streamed_cases items with none | ⟨name, mimeType, filename, rest, shape⟩
  · rw [none]
    rfl
  · rw [shape]
    simp only [sendItems, write_sent _ c r]
    congr 2
    simp [streaming, sent, setRequest]

/-- `send_form`, by the items from the current one on. -/
theorem sendForm_eq
    {w : World}
    {c r : Nat}
    {position : Nat}
    (active : (w.clients c).request = some r)
    (field : (w.clients c).formField = position)
    (inside : position ≤ (w.requests r).form.length) :
    w.sendForm c =
      let items := (w.requests r).form.drop position
      let sent := w.passed c r (immediate items)
      match streamed items with
      | .file name mimeType filename :: _ =>
          if ((w.requests r).streaming
              (position + (immediate items).length)).given then
            .fault .nullInput
          else
            .ok (sent.streaming c r name mimeType filename)
      | _ => .ok (sent.trailed c r) := by
  have split := immediate_append_streamed ((w.requests r).form.drop position)
  generalize isItems : (w.requests r).form.drop position = items at split
  have isLength : items.length = (w.requests r).form.length - position := by
    rw [← isItems, List.length_drop]
  have sent :
      w.sendItems c r items =
        (w.passed c r (immediate items)).sendItems c r (streamed items) := by
    conv_lhs => rw [← split]
    exact sendItems_append w c r _ _ fun _ => isImmediate_of_immediate
  have sameForm :
      ((w.passed c r (immediate items)).requests r).form =
        (w.requests r).form := by
    simp [passed, World.sent]
  have sameStreaming :
      ((w.passed c r (immediate items)).requests r).streaming =
        (w.requests r).streaming := by
    simp [passed, World.sent]
  have newField :
      ((w.passed c r (immediate items)).clients c).formField =
        ((position + (immediate items).length : Nat) : Int) := by
    simp [passed, World.sent, field]
  unfold sendForm
  simp only [active, field, Int.toNat_natCast, isItems, sent]
  rw [sendItems_streamed, newField, Int.toNat_natCast, sameStreaming]
  rcases streamed_cases items with none | ⟨name, mimeType, filename, rest, shape⟩
  · rw [none, List.append_nil] at split
    have atEnd :
        ((position + (immediate items).length : Nat) : Int) =
          (w.requests r).form.length := by
      rw [split, isLength]
      omega
    simp only [none, Straight.andThen, sameForm, newField, atEnd, ↓reduceIte,
      write_sent _ c r]
    congr 1
    simp [trailed, World.sent, setClient, setRequest]
  · have before : (immediate items).length < items.length := by
      have total := congrArg List.length split
      rw [shape, List.length_append, List.length_cons] at total
      omega
    simp only [shape]
    split
    · rfl
    · have notAtEnd :
          ((position + (immediate items).length : Nat) : Int) ≠
            (w.requests r).form.length := by
        omega
      have stays :
          (((w.passed c r (immediate items)).streaming c r name mimeType
            filename).clients c).formField =
              ((position + (immediate items).length : Nat) : Int) := by
        simp [streaming, World.sent, newField]
      have formStays :
          (((w.passed c r (immediate items)).streaming c r name mimeType
            filename).requests r).form = (w.requests r).form := by
        simp [streaming, World.sent, sameForm]
      simp only [Straight.andThen, stays, formStays, notAtEnd, ↓reduceIte]

/-! ## The start of a request -/

/-- What is written of a form before the first streamer has delivered anything. -/
def formStart (r : Nat) (form : List FormItem) : List Piece :=
  (immediate form).flatMap (FormItem.pieces r) ++
    match streamed form with
    | item :: _ => item.pieces r
    | [] => [.formFinish r]

/-- What `Client::request` writes behind the head. -/
def startPieces (r : Nat) (fields : RequestFields) : List Piece :=
  if fields.formStreaming then formStart r fields.form else []

theorem formStart_ne_nil (r : Nat) (form : List FormItem) :
    formStart r form ≠ [] := by
  unfold formStart
  rcases streamed_cases form with none | ⟨name, mimeType, filename, rest, shape⟩
  · simp [none]
  · simp [shape, FormItem.pieces]

/-- No piece behind the head is a head. -/
theorem notHead_of_startPieces
    {r : Nat}
    {fields : RequestFields}
    {piece : Piece}
    (member : piece ∈ startPieces r fields) :
    piece.req = r ∧ ∀ other head, piece ≠ .head other head := by
  have ofItem :
      ∀ item : FormItem, piece ∈ item.pieces r →
        piece.req = r ∧ ∀ other head, piece ≠ .head other head := by
    intro item isPiece
    cases item <;> simp only [FormItem.pieces, List.mem_cons,
      List.not_mem_nil, or_false] at isPiece
    · subst isPiece
      simp [Piece.req]
    · rcases isPiece with rfl | rfl <;> simp [Piece.req]
    · subst isPiece
      simp [Piece.req]
  unfold startPieces formStart at member
  split at member
  · rcases List.mem_append.mp member with early | late
    · obtain ⟨item, _, isPiece⟩ := List.mem_flatMap.mp early
      exact ofItem item isPiece
    · split at late
      · exact ofItem _ late
      · rw [List.mem_singleton] at late
        subst late
        simp [Piece.req]
  · cases member

/-- The first streamed file of a form has been given away. -/
def FirstGiven (request : Request) : Prop :=
  request.formStreaming = true ∧
    streamed request.form ≠ [] ∧
    (request.streaming (immediate request.form).length).given = true

/-- A request has been started, and all that is written at once is written. -/
structure Wrote (w : World) (c r : Nat) (next : World) : Prop where
  trace :
    ∃ tcp opening,
      Connects w c (w.requests r).toRequestFields.withScheme tcp opening ∧
        next.trace =
          w.trace ++ opening ++ .started c r ::
            (.head r (w.requests r).toRequestFields.withScheme ::
              startPieces r (w.requests r).toRequestFields).flatMap
                (wroteOn c tcp.connection)
  completed :
    (next.requests r).transferCompleted =
      if (w.requests r).formStreaming then
        (streamed (w.requests r).form).isEmpty ||
          (w.requests r).transferCompleted
      else
        !(w.requests r).chunked || (w.requests r).body.length != 0 ||
          (w.requests r).transferCompleted
  given :
    (w.requests r).formStreaming = true →
    streamed (w.requests r).form ≠ [] →
    (next.requests r).streaming (immediate (w.requests r).form).length =
      { given := w.config.takesInput, streamer := some c, running := true }
  fresh : ¬ FirstGiven (w.requests r)

/-- What a started request writes at once, and why it may not be started. -/
theorem startRequest_wrote
    {w : World}
    {c r : Nat}
    {tcp : Tcp}
    {opening : List Event}
    (connects :
      Connects w c (w.requests r).toRequestFields.withScheme tcp opening) :
    ((w.linked c r tcp opening).startRequest c r).Post (Wrote w c r)
      (fun _ => False) (fun _ => FirstGiven (w.requests r)) := by
  have sameFields :
      ((w.linked c r tcp opening).requests r).toRequestFields =
        (w.requests r).toRequestFields.withScheme := by
    simp [linked, RequestFields.withScheme]
  have sameBegun :
      (((w.linked c r tcp opening).begun c r).requests r).toRequestFields =
        (w.requests r).toRequestFields.withScheme := by
    simp [begun, linked, RequestFields.withScheme]
  have sameStreaming :
      (((w.linked c r tcp opening).begun c r).requests r).streaming =
        (w.requests r).streaming := by
    simp only [begun, Function.update_self]
    rw [ensureTimerActive_eq]
    simp [linked]
  have sameCompleted :
      (((w.linked c r tcp opening).begun c r).requests r).transferCompleted =
        (w.requests r).transferCompleted := by
    simp only [begun, Function.update_self]
    rw [ensureTimerActive_eq]
    simp [linked]
  have begunTrace :
      ((w.linked c r tcp opening).begun c r).trace =
        w.trace ++ opening ++ .started c r ::
          wroteOn c tcp.connection
            (.head r (w.requests r).toRequestFields.withScheme) := by
    simp [begun, linked, RequestFields.withScheme]
  have begunConnection :
      (((w.linked c r tcp opening).begun c r).clients c).tcp.connection =
        tcp.connection := by
    simp [begun, linked]
  have begunConfig : ((w.linked c r tcp opening).begun c r).config = w.config := by
    simp [begun, linked]
  have begunRequest :
      (((w.linked c r tcp opening).begun c r).clients c).request = some r := by
    simp [begun]
  rw [startRequest_eq, sameFields]
  generalize (w.linked c r tcp opening).begun c r = middle at *
  have formStreaming :
      (w.requests r).toRequestFields.withScheme.formStreaming =
        (w.requests r).formStreaming := rfl
  have form : (middle.requests r).form = (w.requests r).form := by
    rw [sameBegun]
    rfl
  rw [formStreaming]
  split
  · rename_i streams
    generalize isReady :
      middle.setClient c { middle.clients c with formField := 0 } = ready
    have readyField : (ready.clients c).formField = ((0 : Nat) : Int) := by
      simp [← isReady, setClient]
    have readyRequest : (ready.clients c).request = some r := by
      simpa [← isReady, setClient] using begunRequest
    have readyRequests : ready.requests = middle.requests := by
      simp [← isReady, setClient]
    have readyConfig : ready.config = w.config := by
      simpa [← isReady, setClient] using begunConfig
    have readyTrace : ready.trace = middle.trace := by
      simp [← isReady, setClient]
    have readyConnection :
        (ready.clients c).tcp.connection = tcp.connection := by
      simpa [← isReady, setClient] using begunConnection
    rw [sendForm_eq readyRequest readyField (Nat.zero_le _)]
    simp only [readyRequests, form, sameStreaming, List.drop_zero, Nat.zero_add]
    rcases streamed_cases (w.requests r).form with
      none | ⟨name, mimeType, filename, rest, shape⟩
    · simp only [none]
      refine ⟨⟨tcp, opening, connects, ?_⟩, ?_, ?_, ?_⟩
      · simp [trailed, passed, World.sent, readyTrace, begunTrace,
          readyConnection, startPieces, streams, formStart, none]
      · simp [trailed, World.sent, streams, none]
      · exact fun _ notNone => (notNone none).elim
      · exact fun isGiven => isGiven.2.1 none
    · simp only [shape]
      split
      · rename_i isGiven
        exact ⟨streams, by simp [shape], isGiven⟩
      · rename_i notGiven
        refine ⟨⟨tcp, opening, connects, ?_⟩, ?_, ?_,
          fun isGiven => notGiven isGiven.2.2⟩
        · simp [World.streaming, passed, World.sent, readyTrace, begunTrace,
            readyConnection, startPieces, streams, formStart, shape,
            FormItem.pieces]
        · simp [World.streaming, passed, World.sent, readyRequests,
            sameCompleted, streams, shape]
        · intro _ _
          simp [World.streaming, passed, World.sent, readyField, readyConfig]
  · rename_i notStreams
    have noForm : (w.requests r).formStreaming = false := by
      simpa using notStreams
    have trace :
        middle.trace =
          w.trace ++ opening ++ .started c r ::
            (.head r (w.requests r).toRequestFields.withScheme ::
              startPieces r (w.requests r).toRequestFields).flatMap
                (wroteOn c tcp.connection) := by
      simp [begunTrace, startPieces, noForm]
    have chunked :
        (w.requests r).toRequestFields.withScheme.chunked =
          (w.requests r).chunked := rfl
    have body :
        (w.requests r).toRequestFields.withScheme.body =
          (w.requests r).body := rfl
    rw [chunked, body]
    split
    · rename_i known
      refine ⟨⟨tcp, opening, connects, trace⟩, ?_, ?_,
        fun isGiven => notStreams isGiven.1⟩
      · simp only [setRequest, Function.update_self, noForm, Bool.false_eq_true,
          ↓reduceIte, known, Bool.true_or]
      · simp [noForm]
    · rename_i unknown
      have notNow :
          (!(w.requests r).chunked || (w.requests r).body.length != 0) =
            false := by
        simpa using unknown
      refine ⟨⟨tcp, opening, connects, trace⟩, ?_, ?_,
        fun isGiven => notStreams isGiven.1⟩
      · rw [sameCompleted]
        simp only [noForm, Bool.false_eq_true, ↓reduceIte, notNow,
          Bool.false_or]
      · simp [noForm]

/-- `Client::request` starts a request, unless it refuses it or its file is gone. -/
theorem clientRequest_wrote (w : World) (c r : Nat) :
    (w.clientRequest c r).Post (Wrote w c r) (fun _ => True)
      (fun _ => FirstGiven (w.requests r)) := by
  rcases clientRequest_linked w c r with
    ⟨next, refuses, _⟩ | ⟨tcp, opening, _, connects, starts⟩
  · rw [refuses]
    trivial
  · rw [starts]
    exact (startRequest_wrote connects).imp (fun _ => id)
      (fun _ => False.elim) (fun _ => id)

end World

end UniEventHttp.ClientSide
