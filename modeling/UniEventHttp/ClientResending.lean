import UniEventHttp.ClientErrors
import UniEventHttp.ClientForms
import UniEventHttp.ClientRedirect

namespace UniEventHttp.ClientSide.World

/-!
# Requests that are sent again

A redirected request is started like any other one, in the state in which the
redirect leaves it.  A 303 takes the body and the method away, but neither the
`chunked` flag nor the form.
-/

/-! ## The request between two starts -/

/-- The request as a redirect leaves it, with its pool, and after a wait. -/
def LeftAs (hopped request : Request) : Prop :=
  ∃ pool timer, request = { hopped with pool := pool, timer := timer }

/-- The request when it has left its client to follow a redirect. -/
def hopped (w : World) (c r : Nat) (response : Response) : Request :=
  ((w.rewritten c r response).requests r).cleanupAfterRedirect

theorem LeftAs.refl (request : Request) : LeftAs request request :=
  ⟨request.pool, request.timer, rfl⟩

theorem LeftAs.fields
    {hopped request : Request}
    (left : LeftAs hopped request) :
    request.toRequestFields = hopped.toRequestFields := by
  obtain ⟨pool, timer, rfl⟩ := left
  rfl

theorem hopping_request (w : World) (c r : Nat) (response : Response) :
    (w.hopping c r response).requests r =
      (w.requests r).cleanupAfterRedirect := by
  unfold hopping
  dsimp only
  split <;>
    simp [detached, reset, setTcp, setClient, setRequest,
      Request.cleanupAfterRedirect]

theorem hopping_pools (w : World) (c r : Nat) (response : Response) :
    (w.hopping c r response).pools = w.pools := by
  unfold hopping
  dsimp only
  split <;> rfl

theorem rewritten_pools (w : World) (c r : Nat) (response : Response) :
    (w.rewritten c r response).pools = w.pools := by
  unfold rewritten
  dsimp only
  split <;> rfl

theorem rewritten_request_of_ne
    {w : World}
    {c r : Nat}
    {response : Response}
    (notSeeOther : response.code ≠ 303) :
    (w.rewritten c r response).requests r = w.requests r := by
  unfold rewritten
  simp only [notSeeOther, ↓reduceIte]
  rfl

/-- `putback` leaves alone what is in no queue. -/
theorem PutsBack.request
    {w next : World}
    {p c r : Nat}
    (back : PutsBack w p c next)
    (alone : ¬ w.Waiting r) :
    next.requests r = w.requests r := by
  cases back with
  | @starts entry place rest _ present queue started =>
      have different : r ≠ place.req := by
        rintro rfl
        exact alone ⟨p, _, entry, present,
          List.mem_map.mpr ⟨place, by simp [queue], rfl⟩⟩
      rw [started.requests r different]
      rfl
  | frees _ _ _ =>
      rfl

/-- A pool starts the request as it is, or lets it wait. -/
theorem poolRequest_leaves
    {w next : World}
    {p r : Nat}
    (executed : w.poolRequest p r = .ok next) :
    (∃ (before : World) (d : Nat),
        LeftAs (w.requests r) (before.requests r) ∧
          before.clientRequest d r = .ok next) ∨
      LeftAs (w.requests r) (next.requests r) := by
  have owned :
      ∀ before : World,
        before.requests =
            (w.setRequest r { w.requests r with pool := some p }).requests →
        LeftAs (w.requests r) (before.requests r) := by
    intro before same
    rw [same]
    exact ⟨some p, (w.requests r).timer, by simp [setRequest]⟩
  unfold poolRequest poolStart at executed
  split at executed
  · cases executed
  · dsimp only at executed
    split at executed
    · refine Or.inl ⟨_, _, ?_, executed⟩
      exact owned _ rfl
    · split at executed
      · refine Or.inl ⟨_, _, ?_, executed⟩
        exact owned _ rfl
      · split at executed
        · refine Or.inl ⟨_, _, ?_, executed⟩
          exact owned _ rfl
        · cases executed
          right
          simp only [enqueue, emit, setRequest, setEntry, Function.update_self]
          rw [ensureTimerActive_eq]
          exact ⟨some p, _, rfl⟩

/--
A redirect that is followed starts the request as it leaves it, or lets it wait
so; unless the request has been submitted once more and waits already.
-/
theorem redirected_leaves
    {w next : World}
    {c r : Nat}
    {response : Response}
    {frames : List Frame}
    (active : (w.clients c).request = some r)
    (answered : (w.clients c).response = some response)
    (notCanceled : (w.clients c).redirectCanceled = false)
    (alone : ¬ w.Waiting r)
    (executed : w.redirected c = .next next frames) :
    (∃ (before : World) (d : Nat),
        LeftAs (w.hopped c r response) (before.requests r) ∧
          before.clientRequest d r = .ok next) ∨
      LeftAs (w.hopped c r response) (next.requests r) := by
  rw [redirected_follows active answered notCanceled] at executed
  obtain ⟨followed, isFollowed, isNext⟩ := Straight.before_next executed
  cases isNext
  have isHopped :
      ((w.rewritten c r response).hopping c r response).requests r =
        w.hopped c r response :=
    hopping_request _ c r response
  have same :
      LeftAs (w.hopped c r response)
        (((w.rewritten c r response).hopping c r response).requests r) := by
    rw [isHopped]
    exact .refl _
  unfold followRedirect at isFollowed
  dsimp only at isFollowed
  split at isFollowed
  · exact Or.inl ⟨_, c, same, isFollowed⟩
  · rename_i p inPool
    split at isFollowed
    · obtain ⟨released, putsBack, pooled⟩ := Straight.andThen_ok isFollowed
      have back :=
        putback_post
          (((w.rewritten c r response).hopping c r response).rested c) p c
      rw [putsBack] at back
      have stillAlone :
          ¬ (((w.rewritten c r response).hopping c r response).rested c).Waiting
            r := by
        rintro ⟨q, key, entry, present, member⟩
        refine alone ⟨q, key, entry, ?_, member⟩
        rw [← rewritten_pools w c r response,
          ← hopping_pools _ c r response]
        exact present
      have kept :
          (released.weak c true).requests r = w.hopped c r response := by
        rw [← isHopped]
        exact back.request stillAlone
      rw [← kept]
      exact poolRequest_leaves pooled
    · exact Or.inl ⟨_, c, same, isFollowed⟩

/-- A world with a free client, in which a request may be started. -/
def ready (takesInput : Bool) (request : Request) : World :=
  { initial
      { proxyUri := fun _ => { scheme := "socks5" }, takesInput := takesInput } with
    requests := fun _ => request }

/-- In `ready` a request is refused only for what is wrong with itself. -/
theorem ready_notRefused
    (takesInput : Bool)
    {request : Request}
    (unlinked : request.client = none)
    (checked : request.check = none)
    (r : Nat) :
    ∀ next, (ready takesInput request).clientRequest 0 r ≠ .raise next := by
  have joins : (ready takesInput request).Joins 0 r := ⟨rfl, unlinked, checked⟩
  rcases clientRequest_cases (ready takesInput request) 0 r with
    ⟨notJoins, _⟩ | ⟨_, ⟨_, refuses⟩, _⟩ | ⟨_, _, never⟩
  · exact (notJoins joins).elim
  · rcases refuses with ⟨_, _, fails⟩ | ⟨proxy, _, notSocks, _⟩
    · cases fails
    · exact (notSocks rfl).elim
  · exact never

/-- If a start in `ready` is right whenever there is one, then there is one. -/
theorem ready_starts
    {takesInput : Bool}
    {request : Request}
    {r : Nat}
    {ok : World → Prop}
    (unlinked : request.client = none)
    (checked : request.check = none)
    (post :
      ((ready takesInput request).clientRequest 0 r).Post ok (fun _ => True)
        (fun _ => False)) :
    ∃ next, ok next ∧ Wrote (ready takesInput request) 0 r next := by
  have wrote := clientRequest_wrote (ready takesInput request) 0 r
  have never := ready_notRefused takesInput unlinked checked r
  cases executed : (ready takesInput request).clientRequest 0 r with
  | ok next =>
      rw [executed] at post wrote
      exact ⟨next, post, wrote⟩
  | raise next =>
      exact (never next executed).elim
  | fault reason =>
      rw [executed] at post
      exact post.elim

/-- A form sends something behind the head, where a connection is opened. -/
theorem Wrote.form
    {w next : World}
    {c r : Nat}
    (wrote : Wrote w c r next)
    (unconnected : (w.clients c).tcp.status = .closed)
    (streams : (w.requests r).formStreaming = true) :
    ∃ events connection piece,
      next.trace = w.trace ++ events ∧
        .wrote c connection piece ∈ events ∧
          ∀ fields, piece ≠ .head r fields := by
  obtain ⟨tcp, opening, connects, trace⟩ := wrote.trace
  cases connects with
  | reuses connected _ _ =>
      rw [unconnected] at connected
      cases connected
  | opens tcp timeout _ connection _ _ =>
      obtain ⟨piece, member⟩ :=
        List.exists_mem_of_ne_nil _ (formStart_ne_nil r (w.requests r).form)
      have isStart : piece ∈ startPieces r (w.requests r).toRequestFields := by
        simpa [startPieces, streams] using member
      refine ⟨_, w.nextConnection, piece, by rw [trace, List.append_assoc], ?_,
        (notHead_of_startPieces isStart).2 r⟩
      refine List.mem_append_right _ (List.mem_cons_of_mem _ ?_)
      refine List.mem_flatMap.mpr ⟨piece, List.mem_cons_of_mem _ isStart, ?_⟩
      simp [wroteOn, connection]

/-! ## A 303 -/

/-- The head of a `GET` without a body is all that is sent, and it is the request. -/
structure BodylessGet (w : World) (c r : Nat) (next : World) : Prop where
  sent :
    ∀ events,
      next.trace = w.trace ++ events →
      ∀ connection piece,
        .wrote c connection piece ∈ events →
        ∃ fields, piece = .head r fields ∧ fields.method = .get ∧ fields.body = []
  completed : (next.requests r).transferCompleted = true
  /-- Its response does not abort a transfer. -/
  unaborted : next.finishError r none = none

/-- Whenever the request is started after the 303, it is a `GET` without a body. -/
structure BecomesGet (w : World) (c r : Nat) (response : Response) : Prop where
  /-- The redirect starts the request, or lets it wait, as `hopped` has it. -/
  leaves :
    ∀ (next : World) (frames : List Frame),
      ¬ w.Waiting r →
      w.redirected c = .next next frames →
      (∃ (before : World) (d : Nat),
          LeftAs (w.hopped c r response) (before.requests r) ∧
            before.clientRequest d r = .ok next) ∨
        LeftAs (w.hopped c r response) (next.requests r)
  starts :
    ∀ (before : World) (d : Nat),
      LeftAs (w.hopped c r response) (before.requests r) →
      (before.clientRequest d r).Post (BodylessGet before d r) (fun _ => True)
        (fun _ => False)

theorem hopped_of_seeOther
    {w : World}
    {c r : Nat}
    {response : Response}
    (seeOther : response.code = 303) :
    w.hopped c r response =
      Request.cleanupAfterRedirect
        { w.requests r with method := .get, body := [] } := by
  simp [hopped, rewritten, seeOther, setRequest, setClient]

/-- A start that writes only the head of a `GET` sends nothing else. -/
theorem Wrote.bodylessGet
    {w next : World}
    {c r : Nat}
    (wrote : Wrote w c r next)
    (isGet : (w.requests r).method = .get)
    (noBody : (w.requests r).body = [])
    (notChunked : (w.requests r).chunked = false)
    (notStreaming : (w.requests r).formStreaming = false) :
    BodylessGet w c r next := by
  have completed : (next.requests r).transferCompleted = true := by
    rw [wrote.completed]
    simp [notStreaming, notChunked]
  refine ⟨?_, completed, by simp [finishError, completed]⟩
  intro events trace connection piece member
  obtain ⟨tcp, opening, connects, isTrace⟩ := wrote.trace
  rw [isTrace, List.append_assoc] at trace
  have same := List.append_cancel_left trace
  subst same
  simp only [startPieces, notStreaming, Bool.false_eq_true, ↓reduceIte,
    List.flatMap_cons, List.flatMap_nil, List.append_nil, List.mem_append,
    List.mem_cons, reduceCtorEq, false_or, wroteOn, List.mem_map,
    Option.mem_toList] at member
  rcases member with isOpening | ⟨_, _, isHead⟩
  · cases connects with
    | reuses _ _ _ =>
        cases isOpening
    | opens _ _ _ _ _ _ =>
        simp at isOpening
  · simp only [Event.wrote.injEq] at isHead
    exact ⟨_, isHead.2.2.symm, isGet, noBody⟩

/-- A 303 makes a `GET` without a body of requests that are neither chunked nor forms. -/
theorem becomesGet_iff
    {w : World}
    {c r : Nat}
    {response : Response}
    (active : (w.clients c).request = some r)
    (answered : (w.clients c).response = some response)
    (notCanceled : (w.clients c).redirectCanceled = false)
    (checked : (w.requests r).check = none)
    (seeOther : response.code = 303) :
    BecomesGet w c r response ↔
      (w.requests r).chunked = false ∧
        (w.requests r).formStreaming = false := by
  constructor
  · intro becomes
    have isHopped := hopped_of_seeOther (w := w) (c := c) (r := r) seeOther
    have unlinked : (w.hopped c r response).client = none := by
      rw [isHopped]
      rfl
    have stillChecked : (w.hopped c r response).check = none := by
      rw [isHopped]
      exact checked
    obtain ⟨next, bodyless, wrote⟩ :=
      ready_starts unlinked stillChecked
        (becomes.starts (ready false (w.hopped c r response)) 0 (LeftAs.refl _))
    have notStreaming : (w.hopped c r response).formStreaming = false := by
      refine Bool.eq_false_iff.mpr fun streams => ?_
      obtain ⟨events, connection, piece, trace, member, notHead⟩ :=
        wrote.form rfl streams
      obtain ⟨fields, isHead, _⟩ :=
        bodyless.sent events trace connection piece member
      exact notHead fields isHead
    have completed := bodyless.completed
    rw [wrote.completed] at completed
    have streamsNot :
        ((ready false (w.hopped c r response)).requests r).formStreaming = false :=
      notStreaming
    rw [streamsNot] at completed
    simp only [ready, isHopped] at completed
    refine ⟨by simpa [Request.cleanupAfterRedirect] using completed, ?_⟩
    rw [isHopped] at notStreaming
    exact notStreaming
  · rintro ⟨notChunked, notStreaming⟩
    refine ⟨?_, ?_⟩
    · intro next frames alone executed
      exact redirected_leaves active answered notCanceled alone executed
    · intro before d left
      have fields := left.fields
      rw [hopped_of_seeOther seeOther] at fields
      refine (clientRequest_wrote before d r).imp ?_ (fun _ _ => trivial) ?_
      · intro next wrote
        refine wrote.bodylessGet ?_ ?_ ?_ ?_
        all_goals rw [fields]
        · rfl
        · rfl
        · exact notChunked
        · exact notStreaming
      · rintro _ ⟨streams, _⟩
        rw [fields] at streams
        have off : (w.requests r).formStreaming = true := streams
        rw [notStreaming] at off
        cases off

/-- A 303 to `/index`. -/
def seeOtherIndex : Response :=
  { code := 303, location := some { path := "/index" } }

/-- A client that has received the 303 for a `POST` request. -/
def postSeesOther (chunked : Bool) : World :=
  { initial {} with
    requests := fun _ =>
      { method := .post
        uri := some { scheme := "http", host := "here" }
        body := if chunked then [] else "x=1".toList
        chunked := chunked
        client := some 0 }
    clients := fun _ => { request := some 0, response := some seeOtherIndex } }

/-- A request with a plain body. -/
theorem becomesGet_plain :
    BecomesGet (postSeesOther false) 0 0 seeOtherIndex :=
  (becomesGet_iff rfl rfl rfl rfl rfl).mpr ⟨rfl, rfl⟩

/-- A chunked request is sent as a `GET` that waits for further chunks. -/
theorem chunked_not_becomesGet :
    ¬ BecomesGet (postSeesOther true) 0 0 seeOtherIndex := by
  intro becomes
  obtain ⟨next, bodyless, wrote⟩ :=
    ready_starts (r := 0) rfl rfl
      (becomes.starts (ready false ((postSeesOther true).hopped 0 0 seeOtherIndex)) 0
        (LeftAs.refl _))
  have completed := bodyless.completed
  rw [wrote.completed] at completed
  revert completed
  decide

end UniEventHttp.ClientSide.World
