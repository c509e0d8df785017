import UniEventHttp.ServerState

namespace UniEventHttp.ServerConnection

/-!
# Requests in any segments

A server that answers every request at once, with a whole response, takes the
requests of a stream one by one, until a response ends the connection.  The parser
reports a request once when it arrives in one piece, and part by part otherwise.
Followed report by report, the server shows the same work either way, but for a
connection that is shut down before its last request is there.
-/

/-! ## The abstract server -/

/-- How the application answers each request, by its number and its headers. -/
structure Handler where
  response : Nat → RequestHead → ServerResponse
  /-- It answers on `route_event`, and otherwise on `request_event`. -/
  onRoute : Nat → RequestHead → Bool

/-- What the client and the application see of the work and the end of a connection. -/
inductive Sight where
  | routed (req : Nat)
  | wrote (piece : Piece)
  | closed (soft : Bool)
  deriving Repr, DecidableEq

section Serial

variable (config : ConnectionConfig)
variable (handler : Handler)

/-- The keep-alive limit makes the response to this request the last one. -/
def isLast (req : Nat) : Bool :=
  decide
    (config.maxKeepaliveRequests ≠ 0 ∧ config.maxKeepaliveRequests ≤ req + 1)

/-- The response as `respond` stores it. -/
def accepted (req : Nat) (head : RequestHead) : ServerResponse :=
  let response := handler.response req head
  { response with
    keepAlive := response.keepAlive && !isLast config req
    completed := !response.chunked || response.bodyLength != 0 }

/-- The response as it is written. -/
def answer (req : Nat) (head : RequestHead) : ServerResponse :=
  (accepted config handler req head).withDefaults config.dateHeaderNow

/-- The connection goes on after the response. -/
def goesOn (req : Nat) (head : RequestHead) : Bool :=
  (answer config handler req head).keepAlive && head.keepAlive

/-- A server that takes the requests one by one. -/
def serve : Nat → List RequestHead → List Sight
  | _, [] => []
  | req, head :: heads =>
      .routed req ::
        .wrote (.head req (answer config handler req head)) ::
          if goesOn config handler req head then
            serve (req + 1) heads
          else
            [.closed true]

/-- What is seen behind the response when it ends the connection. -/
def ending (req : Nat) (head : RequestHead) : List Sight :=
  if goesOn config handler req head then [] else [.closed true]

/-- New responses, each of them whole. -/
structure Handler.Whole : Prop where
  fresh : ∀ req head, (handler.response req head).completed = false
  whole :
    ∀ req head,
      (handler.response req head).chunked = true →
      (handler.response req head).bodyLength ≠ 0

/-- Whole responses, and those that end a connection not before its request is there. -/
structure Handler.Prompt : Prop extends handler.Whole where
  onRoute :
    ∀ req head,
      handler.onRoute req head = true → goesOn config handler req head = true

end Serial

/-! ## Segments -/

/-- The reports of the parser on a stream of requests with these headers. -/
inductive Reports : List RequestHead → List Parsed → Prop where
  | nil : Reports [] []
  | headers {head : RequestHead} {heads : List RequestHead}
      {reports : List Parsed} :
      Reports (head :: heads) reports →
      Reports (head :: heads) (.headers :: reports)
  | body {head : RequestHead} {heads : List RequestHead}
      {reports : List Parsed} :
      Reports (head :: heads) reports →
      Reports (head :: heads) (.body head :: reports)
  | done {head : RequestHead} {heads : List RequestHead}
      {reports : List Parsed} :
      Reports heads reports →
      Reports (head :: heads) (.done head :: reports)

/--
The reports of the parser on a stream that comes in parts, and those on the whole stream:
of a request, the part before its last one may be reported any number of times.
-/
inductive Fragments : List Parsed → List Parsed → Prop where
  | nil : Fragments [] []
  | headers {result : Parsed} {rest reports : List Parsed} :
      Fragments (result :: rest) reports →
      Fragments (result :: rest) (.headers :: reports)
  | body {result : Parsed} {head : RequestHead} {rest reports : List Parsed} :
      result.head? = some head →
      Fragments (result :: rest) reports →
      Fragments (result :: rest) (.body head :: reports)
  | last {result : Parsed} {rest reports : List Parsed} :
      Fragments rest reports →
      Fragments (result :: rest) (result :: reports)

/-- There are no malformed requests in the stream. -/
def NoErrors (reports : List Parsed) : Prop :=
  ∀ error, .error error ∉ reports

/-- A buffer is consumed to its end unless a request is finished. -/
def Consumed (buf : List Parsed) : Prop :=
  buf.IsChain fun earlier _ => earlier.isDone = true

instance (buf : List Parsed) : Decidable (Consumed buf) :=
  inferInstanceAs (Decidable (List.IsChain _ _))

/-! ## Report by report -/

/-- Where the server is in the stream. -/
inductive Stage where
  /-- The next request is to come; a connection that has been shut down is adrift. -/
  | next (adrift : Bool) (req : Nat)
  /-- The request will be answered at its end. -/
  | routed (req : Nat) (head : RequestHead)
  /-- The request has been answered before its end. -/
  | answered (req : Nat) (head : RequestHead)
  /-- Nothing more is read. -/
  | ceased
  deriving Repr, DecidableEq

section Stages

variable (config : ConnectionConfig)
variable (handler : Handler)

/-- The response is given when the request is there. -/
def Stage.behind (req : Nat) (head : RequestHead) : Stage :=
  if goesOn config handler req head then .next false (req + 1) else .ceased

/--
One report, and what is then seen.  On a connection that is adrift, the request that is
routed is the last one that is followed here.
-/
def Stage.report : Stage → Parsed → Stage × List Sight
  | .next true req, .body _ => (.ceased, [.routed req])
  | .next true req, .done _ => (.ceased, [.routed req])
  | .next false req, .body head =>
      if handler.onRoute req head then
        (.answered req head,
          [.routed req, .wrote (.head req (answer config handler req head))])
      else
        (.routed req head, [.routed req])
  | .next false req, .done head =>
      (.behind config handler req head,
        .routed req :: .wrote (.head req (answer config handler req head)) ::
          ending config handler req head)
  | .routed req head, .done _ =>
      (.behind config handler req head,
        .wrote (.head req (answer config handler req head)) ::
          ending config handler req head)
  | .answered req head, .done _ =>
      (.next (!goesOn config handler req head) (req + 1),
        ending config handler req head)
  | stage, _ => (stage, [])

/-- What is seen during these reports. -/
def Stage.sights : Stage → List Parsed → List Sight
  | _, [] => []
  | stage, result :: rest =>
      (stage.report config handler result).2 ++
        ((stage.report config handler result).1).sights rest

/-- The report lets a connection that has been shut down route a request. -/
def Stage.isStray : Stage → Parsed → Bool
  | .next adrift _, result => adrift && result.head?.isSome
  | _, _ => false

/-- A request is routed by a connection that has been shut down. -/
def Stage.strays : Stage → List Parsed → Bool
  | _, [] => false
  | stage, result :: rest =>
      stage.isStray result ||
        ((stage.report config handler result).1).strays rest

@[simp] theorem ceased_sights (reports : List Parsed) :
    Stage.ceased.sights config handler reports = [] := by
  induction reports with
  | nil =>
      rfl
  | cons result rest inductionHypothesis =>
      exact inductionHypothesis

@[simp] theorem ceased_strays (reports : List Parsed) :
    Stage.ceased.strays config handler reports = false := by
  induction reports with
  | nil =>
      rfl
  | cons result rest inductionHypothesis =>
      exact inductionHypothesis

end Stages

/-! ## Streams in parts -/

section Fragments

variable {config : ConnectionConfig}
variable {handler : Handler}
variable {stage : Stage}

/--
A stream that comes in parts shows what the whole stream does, or one request more, which
is routed on a connection that has been shut down.
-/
inductive Agrees
    (config : ConnectionConfig)
    (handler : Handler)
    (stage : Stage)
    (whole reports : List Parsed) : Prop where
  | same :
      stage.sights config handler reports = stage.sights config handler whole →
      stage.strays config handler reports = stage.strays config handler whole →
      Agrees config handler stage whole reports
  | strays (req : Nat) :
      stage.strays config handler reports = true →
      stage.strays config handler whole = false →
      stage.sights config handler reports =
        stage.sights config handler whole ++ [.routed req] →
      Agrees config handler stage whole reports

/-- Nothing follows for a report that shows nothing. -/
theorem Agrees.silent
    {result : Parsed}
    {whole reports : List Parsed}
    (agrees : Agrees config handler stage whole reports)
    (reported : stage.report config handler result = (stage, []))
    (calm : stage.isStray result = false) :
    Agrees config handler stage whole (result :: reports) := by
  have sights :
      stage.sights config handler (result :: reports) =
        stage.sights config handler reports := by
    simp [Stage.sights, reported]
  have strays :
      stage.strays config handler (result :: reports) =
        stage.strays config handler reports := by
    simp [Stage.strays, reported, calm]
  cases agrees with
  | same sameSights sameStrays =>
      exact .same (sights.trans sameSights) (strays.trans sameStrays)
  | strays req isStray notWhole more =>
      exact .strays req (strays.trans isStray) notWhole (sights.trans more)

theorem report_of_isStray
    {result : Parsed}
    (isStray : stage.isStray result = true) :
    (stage.report config handler result).1 = .ceased := by
  cases stage with
  | next adrift req =>
      cases adrift <;> cases result <;>
        simp_all [Stage.isStray, Stage.report, Parsed.head?]
  | routed _ _ | answered _ _ | ceased =>
      cases isStray

/-- The same report comes first. -/
theorem Agrees.cons
    {result : Parsed}
    {whole reports : List Parsed}
    (agrees :
      Agrees config handler (stage.report config handler result).1 whole reports) :
    Agrees config handler stage (result :: whole) (result :: reports) := by
  cases agrees with
  | same sameSights sameStrays =>
      exact .same (by simp [Stage.sights, sameSights]) (by simp [Stage.strays, sameStrays])
  | strays req isStray notWhole more =>
      have calm : stage.isStray result = false := by
        cases first : stage.isStray result with
        | false =>
            rfl
        | true =>
            rw [report_of_isStray first, ceased_strays] at isStray
            cases isStray
      exact .strays req (by simp [Stage.strays, isStray])
        (by simp [Stage.strays, notWhole, calm]) (by simp [Stage.sights, more])

/-- A connection that is adrift routes one request, if there is one. -/
theorem adrift_sights (req : Nat) (reports : List Parsed) :
    (Stage.next true req).sights config handler reports =
      if (Stage.next true req).strays config handler reports then
        [.routed req]
      else
        [] := by
  induction reports with
  | nil =>
      rfl
  | cons result rest inductionHypothesis =>
      cases result with
      | headers | error _ =>
          exact inductionHypothesis
      | body head | done head =>
          simp [Stage.sights, Stage.strays, Stage.report, Stage.isStray, Parsed.head?]

theorem Agrees.of_same
    {whole middle reports : List Parsed}
    (agrees : Agrees config handler stage middle reports)
    (sights :
      stage.sights config handler middle = stage.sights config handler whole)
    (strays :
      stage.strays config handler middle = stage.strays config handler whole) :
    Agrees config handler stage whole reports := by
  cases agrees with
  | same sameSights sameStrays =>
      exact .same (sameSights.trans sights) (sameStrays.trans strays)
  | strays req isStray notWhole more =>
      exact .strays req isStray (strays.symm.trans notWhole) (by rw [more, sights])

/-- The headers of a request are reported before its end. -/
theorem Agrees.body
    {req : Nat}
    {head : RequestHead}
    {result : Parsed}
    {rest reports : List Parsed}
    (isHead : result.head? = some head)
    (agrees :
      Agrees config handler
        ((Stage.next false req).report config handler (.body head)).1
        (result :: rest) reports) :
    Agrees config handler (.next false req) (result :: rest) (.body head :: reports) := by
  have first : Agrees config handler (.next false req)
      (.body head :: result :: rest) (.body head :: reports) := agrees.cons
  cases result with
  | headers | error _ =>
      cases isHead
  | body other =>
      obtain rfl : other = head := Option.some.inj isHead
      cases early : handler.onRoute req other <;>
        exact first.of_same (by simp [Stage.sights, Stage.report, early])
          (by simp [Stage.strays, Stage.report, Stage.isStray, early])
  | done other =>
      obtain rfl : other = head := Option.some.inj isHead
      cases early : handler.onRoute req other with
      | false =>
          exact first.of_same (by simp [Stage.sights, Stage.report, early])
            (by simp [Stage.strays, Stage.report, Stage.isStray, early])
      | true =>
          cases on : goesOn config handler req other with
          | true =>
              exact first.of_same
                (by simp [Stage.sights, Stage.report, early, Stage.behind, ending, on])
                (by simp [Stage.strays, Stage.report, Stage.isStray, early, Stage.behind,
                  on])
          | false =>
              -- the answer is the last one, and the rest of the buffer is read on
              have adrift :
                  (Stage.next true (req + 1)).sights config handler rest =
                    if (Stage.next true (req + 1)).strays config handler rest then
                      [.routed (req + 1)]
                    else
                      [] :=
                adrift_sights (req + 1) rest
              have strays :
                  (Stage.next false req).strays config handler
                      (.body other :: .done other :: rest) =
                    (Stage.next true (req + 1)).strays config handler rest := by
                simp [Stage.strays, Stage.report, Stage.isStray, early, on]
              have whole :
                  (Stage.next false req).strays config handler (.done other :: rest) =
                    false := by
                simp [Stage.strays, Stage.report, Stage.isStray, Stage.behind, on]
              have sights :
                  (Stage.next false req).sights config handler
                      (.body other :: .done other :: rest) =
                    (Stage.next false req).sights config handler (.done other :: rest) ++
                      (Stage.next true (req + 1)).sights config handler rest := by
                simp [Stage.sights, Stage.report, Stage.behind, ending, early, on]
              cases isStray : (Stage.next true (req + 1)).strays config handler rest with
              | false =>
                  rw [isStray] at adrift strays
                  exact first.of_same (by simp [sights, adrift]) (strays.trans whole.symm)
              | true =>
                  rw [isStray] at adrift strays
                  cases first with
                  | same sameSights sameStrays =>
                      exact .strays (req + 1) (sameStrays.trans strays) whole
                        (by simp [sameSights, sights, adrift])
                  | strays _ _ notMiddle _ =>
                      simp [strays] at notMiddle

/-- However a stream is cut. -/
theorem Fragments.agrees
    {whole reports : List Parsed}
    (fragments : Fragments whole reports) :
    ∀ stage, Agrees config handler stage whole reports := by
  induction fragments with
  | nil =>
      exact fun stage => .same rfl rfl
  | headers _ inductionHypothesis =>
      intro stage
      refine (inductionHypothesis stage).silent ?_ ?_
      · rcases stage with ⟨_ | _, _⟩ | _ | _ | _ <;> rfl
      · cases stage <;> simp [Stage.isStray, Parsed.head?]
  | @body result head rest reports isHead _ inductionHypothesis =>
      intro stage
      cases stage with
      | next adrift req =>
          cases adrift with
          | false =>
              exact .body isHead (inductionHypothesis _)
          | true =>
              cases result with
              | headers | error _ =>
                  cases isHead
              | body other | done other =>
                  exact .same (by simp [Stage.sights, Stage.report])
                    (by simp [Stage.strays, Stage.report, Stage.isStray, Parsed.head?])
      | routed _ _ | answered _ _ | ceased =>
          exact (inductionHypothesis _).silent rfl rfl
  | last _ inductionHypothesis =>
      exact fun stage => (inductionHypothesis _).cons

end Fragments

/-! ## Requests that are answered in time -/

theorem Reports.noErrors
    {heads : List RequestHead}
    {reports : List Parsed}
    (follow : Reports heads reports) :
    NoErrors reports := by
  induction follow with
  | nil =>
      simp [NoErrors]
  | headers _ inductionHypothesis =>
      exact fun error member => inductionHypothesis error (by simpa using member)
  | body _ inductionHypothesis =>
      exact fun error member => inductionHypothesis error (by simpa using member)
  | done _ inductionHypothesis =>
      exact fun error member => inductionHypothesis error (by simpa using member)

theorem Reports.fragments
    {heads : List RequestHead}
    {reports : List Parsed}
    (follow : Reports heads reports) :
    Fragments (heads.map .done) reports := by
  induction follow with
  | nil =>
      exact .nil
  | headers _ inductionHypothesis =>
      exact .headers inductionHypothesis
  | body _ inductionHypothesis =>
      exact .body rfl inductionHypothesis
  | done _ inductionHypothesis =>
      exact .last inductionHypothesis

/-- Whole requests are worked off as the abstract server does it. -/
theorem sights_whole
    {config : ConnectionConfig}
    {handler : Handler}
    (req : Nat)
    (heads : List RequestHead) :
    (Stage.next false req).sights config handler (heads.map .done) =
      serve config handler req heads := by
  induction heads generalizing req with
  | nil =>
      rfl
  | cons head heads inductionHypothesis =>
      cases on : goesOn config handler req head <;>
        simp [Stage.sights, Stage.report, Stage.behind, ending, serve, on,
          inductionHypothesis]

/-- The connection is not shut down, and it will not be before the request is there. -/
def Stage.InTime (config : ConnectionConfig) (handler : Handler) : Stage → Prop
  | .next adrift _ => adrift = false
  | .answered req head => goesOn config handler req head = true
  | _ => True

theorem Handler.Prompt.strays_eq_false
    {config : ConnectionConfig}
    {handler : Handler}
    (prompt : handler.Prompt config)
    {stage : Stage}
    (inTime : stage.InTime config handler)
    (reports : List Parsed) :
    stage.strays config handler reports = false := by
  induction reports generalizing stage with
  | nil =>
      rfl
  | cons result rest inductionHypothesis =>
      have calm : stage.isStray result = false := by
        cases stage <;> simp_all [Stage.isStray, Stage.InTime]
      have stays : (stage.report config handler result).1.InTime config handler := by
        cases stage with
        | next adrift req =>
            cases inTime
            cases result with
            | headers | error _ =>
                rfl
            | body head =>
                cases early : handler.onRoute req head with
                | true =>
                    simpa [Stage.report, early, Stage.InTime] using
                      prompt.onRoute req head early
                | false =>
                    simp [Stage.report, early, Stage.InTime]
            | done head =>
                simp only [Stage.report, Stage.behind]
                split <;> trivial
        | routed req head =>
            cases result with
            | done other =>
                simp only [Stage.report, Stage.behind]
                split <;> trivial
            | _ =>
                trivial
        | answered req head =>
            have on : goesOn config handler req head = true := inTime
            cases result <;> simp [Stage.report, Stage.InTime, on]
        | ceased =>
            trivial
      rw [Stage.strays, calm, inductionHypothesis stays]
      rfl

theorem Reports.sights
    {config : ConnectionConfig}
    {handler : Handler}
    {heads : List RequestHead}
    {reports : List Parsed}
    (follow : Reports heads reports)
    (prompt : handler.Prompt config) :
    (Stage.next false 0).sights config handler reports =
      serve config handler 0 heads := by
  rw [← sights_whole]
  cases follow.fragments.agrees (.next false 0) with
  | same sameSights _ =>
      exact sameSights
  | strays _ isStray _ _ =>
      have inTime : (Stage.next false 0).InTime config handler := rfl
      rw [prompt.strays_eq_false inTime] at isStray
      cases isStray

end UniEventHttp.ServerConnection
