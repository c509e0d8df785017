import UniEventHttp.ServerSerial

namespace UniEventHttp.ServerConnection

/-!
# However the stream is cut

The requests that are routed and the responses that are written do not depend on how
the stream is cut into buffers, with one exception: a response that ends the connection
is given in `route_event` before the request is there.  The deferred `finish_request`
then shuts the connection down, and `on_read` goes on with the next request.
-/

/-! ## Responses in time -/

/-- All is delivered, or the connection does not read on. -/
theorem Accounted.complete
    {config : ConnectionConfig}
    {handler : Handler}
    {total : List Sight}
    {strays : Bool}
    {c : ServerConnection}
    {later : List (List Parsed)}
    (accounted : Accounted config handler total strays c later.flatten)
    (complete : later = [] ∨ c.canRead = false) :
    c.seen = total ∧ strays = false := by
  have atEnd : Accounted config handler total strays c [] := by
    rcases complete with rfl | silent
    · exact accounted
    · exact accounted.ceases silent (by simp [NoErrors])
  obtain ⟨_, _, completes⟩ := atEnd
  exact ⟨by simpa [Stage.sights] using completes.sights, completes.strays.symm⟩

theorem rests_initial (config : ConnectionConfig) :
    Rests config false (initial config) 0 where
  working :=
    { sameConfig := rfl
      closing := rfl
      stopping := fun _ => rfl
      canRead := rfl
      timer := fun none => by simpa [initial] using none }
  requests := rfl
  parsing := rfl
  nextId := rfl
  processed := rfl

/--
The requests are routed and answered, and the connection is closed, as the abstract
server does it, however they are cut into buffers, and no assertion fails.
-/
theorem seen_of_prompt
    {config : ConnectionConfig}
    {handler : Handler}
    (prompt : handler.Prompt config)
    (timed : config.idleTimeout ≠ 0)
    {heads : List RequestHead}
    {labels : List Label}
    {later : List (List Parsed)}
    {final : Config}
    (cuts : Cuts heads labels later)
    (obeys : machine.Guarded (Obeys handler) (start config) labels)
    (ran : run? config labels = some final) :
    final.fault = none ∧
      (final.stack = [] →
        later = [] ∨ final.state.canRead = false →
        final.state.seen = serve config handler 0 heads) := by
  have inTime : (Stage.next false 0).InTime config handler := rfl
  have accounted :
      Accounted config handler (serve config handler 0 heads) false
        (initial config) (buffers labels ++ later).flatten :=
    ⟨.next false 0, .resting (rests_initial config),
      { sound := cuts.1.noErrors
        sights := by simpa [initial, seen] using cuts.1.sights prompt
        strays := prompt.strays_eq_false inTime _ }⟩
  cases accounted.run prompt.toWhole labels.length le_rfl cuts.2 obeys ran with
  | running noFault running =>
      exact ⟨noFault, fun ends => absurd ends running⟩
  | crashed crashed =>
      exact absurd crashed.2 timed
  | strayed strayed =>
      cases strayed.1
  | rests noFault _ accountedNow =>
      exact ⟨noFault, fun _ complete => (accountedNow.complete complete).1⟩

/-- An application that answers two requests, the first one before it is there. -/
def answersTwice : Handler where
  response := fun req _ => { code := 200, keepAlive := req == 0 }
  onRoute := fun req head => req == 0 && head.keepAlive

theorem answersTwice_prompt : answersTwice.Prompt {} where
  fresh := fun _ _ => rfl
  whole := by
    intro req head isChunked
    cases isChunked
  onRoute := by
    intro req head early
    simp only [answersTwice, Bool.and_eq_true, beq_iff_eq] at early
    simp [goesOn, answer, accepted, ServerResponse.withDefaults, answersTwice,
      isLast, early]

/-- Two requests in three buffers. -/
def inThreeBuffers : List Label :=
  [.input (.onRead [.body {}]), .tick, .tick,
    .input (.respond 0 { code := 200 }), .tick, .tick, .ret, .tick, .tick,
    .tick, .input (.onWrite none),
    .input (.onRead [.done {}, .headers]), .tick, .tick, .tick, .ret, .tick,
    .ret, .tick, .tick, .tick, .ret, .tick, .tick,
    .input (.onRead [.done {}]), .tick, .tick, .ret, .tick, .tick, .ret, .tick,
    .input (.respond 1 { code := 200, keepAlive := false }), .tick, .tick,
    .tick, .ret, .tick, .tick, .ret, .tick]

theorem seen_of_prompt_inThreeBuffers :
    ∃ final,
      run? {} inThreeBuffers = some final ∧
        final.stack = [] ∧
        final.state.seen = serve {} answersTwice 0 [{}, {}] := by
  have cuts : Cuts [{}, {}] inThreeBuffers [] :=
    ⟨.body (.done (.headers (.done .nil))), by decide⟩
  obtain ⟨final, ran⟩ :
      ∃ final, run? {} inThreeBuffers = some final :=
    Option.isSome_iff_exists.mp (by decide)
  have ends : final.stack = [] := by
    have noStack :
        (run? {} inThreeBuffers).map (fun final => final.stack) = some [] := by
      decide
    simpa [ran] using noStack
  exact ⟨final, ran, ends,
    (seen_of_prompt answersTwice_prompt (by decide) cuts (by decide) ran).2
      ends (Or.inl rfl)⟩


/-! ## The property -/

/-- The requests for which `route_event` has fired. -/
def routedRequests (c : ServerConnection) : List Nat :=
  c.trace.filterMap fun
    | .fired (.routeEvent req) => some req
    | _ => none

/--
The connection has received these buffers, as far as it has read them, and nothing runs
any more.
-/
structure Delivered
    (config : ConnectionConfig)
    (handler : Handler)
    (bufs : List (List Parsed))
    (final : Config) : Prop where
  noFault : final.fault = none
  quiet : final.stack = []
  received :
    ∃ labels later,
      run? config labels = some final ∧
        machine.Guarded (Obeys handler) (start config) labels ∧
        buffers labels ++ later = bufs ∧
        (later = [] ∨ final.state.canRead = false)

/-- The same requests have been routed, and the same has been written. -/
def SameWork (one other : Config) : Prop :=
  one.state.routedRequests = other.state.routedRequests ∧
    one.state.written = other.state.written

/-! ## The condition -/

section Condition

variable (config : ConnectionConfig)
variable (handler : Handler)

/-- The headers of another request come behind the end of this one. -/
def followed (reports : List Parsed) : Bool :=
  (reports.dropWhile fun result => !result.isDone).tail.any fun result =>
    result.head?.isSome

/--
The first request whose response ends the connection is answered in `route_event`, before
it is there, and another one follows.
-/
def readsPastClose : Nat → List Parsed → Bool
  | _, [] => false
  | req, .body head :: rest =>
      if handler.onRoute req head && !goesOn config handler req head then
        followed rest
      else
        readsPastClose req rest
  | req, .done head :: rest =>
      goesOn config handler req head && readsPastClose (req + 1) rest
  | req, .headers :: rest => readsPastClose req rest
  | req, .error _ :: rest => readsPastClose req rest

/-- The same, from any stage of the stream on. -/
def Stage.readsPastClose : Stage → List Parsed → Bool
  | .next false req, reports => ServerConnection.readsPastClose config handler req reports
  | .next true _, reports => reports.any fun result => result.head?.isSome
  | .routed req _, reports => ServerConnection.readsPastClose config handler req reports
  | .answered req head, reports =>
      if goesOn config handler req head then
        ServerConnection.readsPastClose config handler req reports
      else
        followed reports
  | .ceased, _ => false

/-- The rest of the request that the server works on comes next. -/
def Stage.Fits : Stage → List Parsed → Prop
  | .routed req head, whole =>
      handler.onRoute req head = false ∧ ∀ result ∈ whole.head?, result.head? = some head
  | .answered _ head, whole => ∀ result ∈ whole.head?, result.head? = some head
  | _, _ => True

end Condition

section Condition

variable {config : ConnectionConfig}
variable {handler : Handler}

/-- The headers of a request are not there yet. -/
theorem readsPastClose_headers
    {stage : Stage}
    {reports : List Parsed}
    (same :
      stage.strays config handler reports = stage.readsPastClose config handler reports) :
    stage.strays config handler (.headers :: reports) =
      stage.readsPastClose config handler (.headers :: reports) := by
  cases stage with
  | next adrift req =>
      cases adrift <;>
        simpa [Stage.strays, Stage.isStray, Stage.report, Stage.readsPastClose,
          ServerConnection.readsPastClose, Parsed.head?] using same
  | routed req head =>
      simpa [Stage.strays, Stage.isStray, Stage.report, Stage.readsPastClose,
        ServerConnection.readsPastClose] using same
  | answered req head =>
      simpa [Stage.strays, Stage.isStray, Stage.report, Stage.readsPastClose,
        ServerConnection.readsPastClose, followed, Parsed.isDone] using same
  | ceased =>
      exact same

/-- A part of the request that the server works on. -/
theorem readsPastClose_body
    {stage : Stage}
    {result : Parsed}
    {head : RequestHead}
    {rest : List Parsed}
    (fits : stage.Fits handler (result :: rest))
    (isHead : result.head? = some head)
    (reports : List Parsed) :
    (stage.isStray (.body head) ||
        (stage.report config handler (.body head)).1.readsPastClose config handler
          reports) =
      stage.readsPastClose config handler (.body head :: reports) := by
  cases stage with
  | next adrift req =>
      cases adrift with
      | true =>
          simp [Stage.isStray, Stage.readsPastClose, Parsed.head?]
      | false =>
          cases early : handler.onRoute req head <;>
            cases on : goesOn config handler req head <;>
              simp [Stage.isStray, Stage.report, Stage.readsPastClose,
                ServerConnection.readsPastClose, early, on]
  | routed req other =>
      obtain ⟨late, same⟩ := fits
      obtain rfl : other = head :=
        Option.some.inj ((same result rfl).symm.trans isHead)
      simp [Stage.isStray, Stage.report, Stage.readsPastClose,
        ServerConnection.readsPastClose, late]
  | answered req other =>
      obtain rfl : other = head :=
        Option.some.inj ((fits result rfl).symm.trans isHead)
      cases on : goesOn config handler req other <;>
        simp [Stage.isStray, Stage.report, Stage.readsPastClose,
          ServerConnection.readsPastClose, on, followed, Parsed.isDone]
  | ceased =>
      rfl

/-- The end of the request that the server works on. -/
theorem readsPastClose_done
    {stage : Stage}
    {head : RequestHead}
    {rest : List Parsed}
    (fits : stage.Fits handler (.done head :: rest))
    (reports : List Parsed) :
    (stage.isStray (.done head) ||
        (stage.report config handler (.done head)).1.readsPastClose config handler
          reports) =
      stage.readsPastClose config handler (.done head :: reports) := by
  cases stage with
  | next adrift req =>
      cases adrift with
      | true =>
          simp [Stage.isStray, Stage.readsPastClose, Parsed.head?]
      | false =>
          cases on : goesOn config handler req head <;>
            simp [Stage.isStray, Stage.report, Stage.behind, Stage.readsPastClose,
              ServerConnection.readsPastClose, on]
  | routed req other =>
      obtain rfl : head = other := Option.some.inj (fits.2 _ rfl)
      cases on : goesOn config handler req head <;>
        simp [Stage.isStray, Stage.report, Stage.behind, Stage.readsPastClose,
          ServerConnection.readsPastClose, on]
  | answered req other =>
      obtain rfl : head = other := Option.some.inj (fits _ rfl)
      cases on : goesOn config handler req head <;>
        simp [Stage.isStray, Stage.report, Stage.readsPastClose,
          ServerConnection.readsPastClose, on, followed, Parsed.isDone]
  | ceased =>
      rfl

/-- The headers of a request have been reported, and its rest comes next. -/
theorem Stage.Fits.body
    {stage : Stage}
    {head : RequestHead}
    {whole rest : List Parsed}
    {result : Parsed}
    (fits : stage.Fits handler (result :: rest))
    (isHead : result.head? = some head)
    (next : ∀ following ∈ whole.head?, following.head? = some head) :
    ((stage.report config handler (.body head)).1).Fits handler whole := by
  cases stage with
  | next adrift req =>
      cases adrift with
      | true =>
          trivial
      | false =>
          cases early : handler.onRoute req head <;>
            simp only [Stage.report, early, ↓reduceIte, Bool.false_eq_true]
          · exact ⟨early, next⟩
          · exact next
  | routed req other =>
      obtain ⟨late, same⟩ := fits
      obtain rfl : other = head :=
        Option.some.inj ((same result rfl).symm.trans isHead)
      exact ⟨late, next⟩
  | answered req other =>
      obtain rfl : other = head :=
        Option.some.inj ((fits result rfl).symm.trans isHead)
      exact next
  | ceased =>
      trivial

theorem fits_behind
    (req : Nat)
    (head : RequestHead)
    (whole : List Parsed) :
    (Stage.behind config handler req head).Fits handler whole := by
  unfold Stage.behind
  split <;> trivial

/-- Behind the end of a request comes another one. -/
theorem fits_done
    (stage : Stage)
    (head : RequestHead)
    (whole : List Parsed) :
    ((stage.report config handler (.done head)).1).Fits handler whole := by
  cases stage with
  | next adrift req =>
      cases adrift with
      | true =>
          trivial
      | false =>
          exact fits_behind req head whole
  | routed req other =>
      exact fits_behind req other whole
  | answered _ _ | ceased =>
      trivial

/-- The condition is decided report by report. -/
theorem Fragments.strays
    {whole reports : List Parsed}
    (fragments : Fragments whole reports)
    (sound : NoErrors whole)
    (consumed : Consumed whole)
    {stage : Stage}
    (fits : stage.Fits handler whole) :
    stage.strays config handler reports =
      stage.readsPastClose config handler reports := by
  induction fragments generalizing stage with
  | nil =>
      rcases stage with ⟨_ | _, _⟩ | _ | _ | _ <;>
        simp [Stage.strays, Stage.readsPastClose, ServerConnection.readsPastClose, followed]
  | headers _ inductionHypothesis =>
      exact readsPastClose_headers (inductionHypothesis sound consumed fits)
  | @body result head rest reports isHead _ inductionHypothesis =>
      rw [Stage.strays, inductionHypothesis sound consumed (fits.body isHead (by simpa))]
      exact readsPastClose_body fits isHead reports
  | @last result rest reports _ inductionHypothesis =>
      have soundRest : NoErrors rest :=
        fun error member => sound error (List.mem_cons_of_mem _ member)
      have consumedRest : Consumed rest := consumed.of_cons
      have alone : result.isDone = false → rest = [] := by
        intro unfinished
        cases rest with
        | nil =>
            rfl
        | cons next others =>
            have isDone := (List.isChain_cons_cons.mp consumed).1
            rw [unfinished] at isDone
            cases isDone
      cases result with
      | error error =>
          exact absurd List.mem_cons_self (sound error)
      | headers =>
          obtain rfl := alone rfl
          have fitsRest : stage.Fits handler [] := by
            cases stage with
            | routed _ _ =>
                exact ⟨fits.1, by simp⟩
            | answered _ _ =>
                exact fun _ member => by cases member
            | next _ _ | ceased =>
                trivial
          exact readsPastClose_headers
            (inductionHypothesis soundRest consumedRest fitsRest)
      | body head =>
          obtain rfl := alone rfl
          rw [Stage.strays,
            inductionHypothesis soundRest consumedRest (fits.body rfl (by simp))]
          exact readsPastClose_body fits rfl reports
      | done head =>
          rw [Stage.strays,
            inductionHypothesis soundRest consumedRest (fits_done stage head rest)]
          exact readsPastClose_done fits reports

end Condition

/-! ## Two ways to receive a stream -/

section Work

variable {config : ConnectionConfig}
variable {handler : Handler}

/-- A stream in one buffer leads to no request that is not to be routed. -/
theorem strays_of_consumed
    {stream : List Parsed}
    (consumed : Consumed stream)
    (req : Nat) :
    (Stage.next false req).strays config handler stream = false := by
  induction stream generalizing req with
  | nil =>
      rfl
  | cons result rest inductionHypothesis =>
      cases result with
      | done head =>
          cases on : goesOn config handler req head with
          | true =>
              simpa [Stage.strays, Stage.isStray, Stage.report, Stage.behind, on] using
                inductionHypothesis consumed.of_cons (req + 1)
          | false =>
              simp [Stage.strays, Stage.isStray, Stage.report, Stage.behind, on]
      | error error =>
          exact inductionHypothesis consumed.of_cons req
      | headers | body _ =>
          cases rest with
          | nil =>
              rfl
          | cons next others =>
              cases (List.isChain_cons_cons.mp consumed).1

def Sight.routed? : Sight → Option Nat
  | .routed req => some req
  | _ => none

def Sight.piece? : Sight → Option Piece
  | .wrote piece => some piece
  | _ => none

theorem routedRequests_eq (c : ServerConnection) :
    c.routedRequests = c.seen.filterMap Sight.routed? := by
  rw [routedRequests, seen, List.filterMap_filterMap]
  congr 1
  funext event
  cases event with
  | fired callback =>
      cases callback <;> rfl
  | _ =>
      rfl

theorem written_eq (c : ServerConnection) :
    c.written = c.seen.filterMap Sight.piece? := by
  rw [written, seen, List.filterMap_filterMap]
  congr 1
  funext event
  cases event with
  | fired callback =>
      cases callback <;> rfl
  | _ =>
      rfl

theorem Fragments.noErrors
    {whole reports : List Parsed}
    (fragments : Fragments whole reports)
    (sound : NoErrors whole) :
    NoErrors reports := by
  induction fragments with
  | nil =>
      exact sound
  | headers _ inductionHypothesis =>
      exact fun error member => inductionHypothesis sound error (by simpa using member)
  | body _ _ inductionHypothesis =>
      exact fun error member => inductionHypothesis sound error (by simpa using member)
  | last _ inductionHypothesis =>
      intro error member
      rcases List.mem_cons.mp member with same | later
      · exact sound error (by simp [same])
      · exact inductionHypothesis
          (fun other known => sound other (List.mem_cons_of_mem _ known)) error later

/-- What a connection shows when it has received a stream. -/
theorem Delivered.shows
    {bufs : List (List Parsed)}
    {final : Config}
    (delivered : Delivered config handler bufs final)
    (whole : handler.Whole)
    (sound : NoErrors bufs.flatten)
    (consumed : ∀ buf ∈ bufs, Consumed buf) :
    (Stage.next false 0).strays config handler bufs.flatten = false ∧
        final.state.seen = (Stage.next false 0).sights config handler bufs.flatten ∨
      (Stage.next false 0).strays config handler bufs.flatten = true ∧
        (Stage.next false 0).sights config handler bufs.flatten <+:
          final.state.seen := by
  obtain ⟨noFault, quiet, labels, later, ran, obeys, rfl, complete⟩ := delivered
  have accounted :
      Accounted config handler
        ((Stage.next false 0).sights config handler (buffers labels ++ later).flatten)
        ((Stage.next false 0).strays config handler (buffers labels ++ later).flatten)
        (initial config) (buffers labels ++ later).flatten :=
    ⟨.next false 0, .resting (rests_initial config), sound, by simp [initial, seen], rfl⟩
  have received : ∀ buf ∈ buffers labels, Consumed buf :=
    fun buf member => consumed buf (List.mem_append_left _ member)
  cases accounted.run whole labels.length le_rfl received obeys ran with
  | running _ running =>
      exact absurd quiet running
  | crashed crashed =>
      simp [crashed.1] at noFault
  | strayed strayed =>
      exact Or.inr strayed
  | rests _ _ accountedNow =>
      obtain ⟨shown, isStrays⟩ := accountedNow.complete complete
      exact Or.inl ⟨isStrays, shown⟩

end Work

/-! ## Runs -/

/-- Each request is answered in `route_event`, one of them with a response that is the last. -/
def closesAt (last : Nat) : Handler where
  response := fun req _ => { code := 200, keepAlive := req != last }
  onRoute := fun _ _ => true

theorem closesAt_whole (last : Nat) : (closesAt last).Whole where
  fresh := fun _ _ => rfl
  whole := by
    intro req head isChunked
    cases isChunked

/-- Two requests, both of them answered before their ends. -/
def bothEarly : List Label :=
  [.input (.onRead [.body {}]),
    .tick, .tick, .input (.respond 0 { code := 200 }), .tick, .tick, .ret, .tick, .tick,
    .tick,
    .input (.onRead [.done {}, .body {}]),
    .tick, .tick, .tick, .ret, .tick, .ret, .tick, .tick, .tick, .ret, .tick, .tick, .tick,
    .input (.respond 1 { code := 200, keepAlive := false }), .tick, .tick, .ret, .tick,
    .tick, .tick,
    .input (.onRead [.done {}]),
    .tick, .tick, .tick, .ret, .tick, .ret, .tick, .tick, .tick, .ret, .tick, .tick, .tick]

/-- The same two requests in one buffer. -/
def bothWhole : List Label :=
  [.input (.onRead [.done {}, .done {}]),
    .tick, .tick, .input (.respond 0 { code := 200 }), .tick, .tick, .tick, .ret, .tick,
    .ret, .tick, .tick, .ret, .tick, .ret, .tick, .tick, .tick,
    .input (.respond 1 { code := 200, keepAlive := false }), .tick, .tick, .tick, .ret,
    .tick, .tick, .ret, .tick, .tick, .ret, .tick, .ret, .tick]

/-- The first response is the last one, and its request has not come to its end. -/
def closedEarly : List Label :=
  [.input (.onRead [.body {}]),
    .tick, .tick, .input (.respond 0 { code := 200, keepAlive := false }), .tick, .tick,
    .ret, .tick, .tick, .tick,
    .input (.onRead [.done {}, .done {}]),
    .tick, .tick, .tick, .ret, .tick, .ret, .tick, .tick, .tick, .ret, .tick, .tick, .tick,
    .tick, .input (.respond 1 { code := 200 }), .tick, .tick, .tick, .ret, .tick,
    .tick, .ret, .tick, .tick, .ret, .tick, .ret, .tick]

/-- The same two requests in one buffer. -/
def closedWhole : List Label :=
  [.input (.onRead [.done {}, .done {}]),
    .tick, .tick, .input (.respond 0 { code := 200, keepAlive := false }), .tick, .tick,
    .tick, .ret, .tick, .tick, .ret, .tick, .tick, .ret, .tick, .ret, .tick]

end UniEventHttp.ServerConnection
