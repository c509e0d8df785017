import UniEventHttp.ClientUploadSteps

namespace UniEventHttp.ClientSide.World

/-!
# Uploads in runs

Only the streamers of a form, and the application by chunks of its own, add to what
has been written of a request after its start.  In every run that follows no redirect
the books of the uploads are kept, and with them the order of what is written.
-/

/-! ## More of a form -/

section Streaming

variable {w next : World} {c r index : Nat}

/-- The upload of a request whose item is being streamed. -/
structure AtItem
    (w : World)
    (c r index : Nat)
    (fields : RequestFields)
    (pieces : List Piece) : Prop where
  active : (w.clients c).request = some r
  field : (w.clients c).formField = index
  isSent : sentOf r w.trace = some (fields, pieces)
  form : fields.form = (w.requests r).form
  streams : fields.formStreaming = true
  incomplete : (w.requests r).transferCompleted = false
  sent : (formPlan r).Sent fields.form (some index) pieces
  streaming : ((w.requests r).streaming index).RunsFor c
  others :
    ∀ item, item ≠ index → ((w.requests r).streaming item).running = false

theorem Books.atItem
    (books : Books w)
    (runs : ((w.requests r).streaming index).running = true)
    (streamer : ((w.requests r).streaming index).streamer = some c) :
    ∃ fields pieces, AtItem w c r index fields pieces := by
  obtain ⟨active, field⟩ := books.runner runs streamer
  obtain ⟨fields, pieces, isSent, form, progress⟩ := books.holds c r active
  refine ⟨fields, pieces, ?_⟩
  cases progress with
  | ended isOver _ =>
      rw [field] at isOver
      omega
  | item other isItem streams incomplete sent streaming =>
      rw [field] at isItem
      have same : index = other := by exact_mod_cast isItem
      subst same
      refine ⟨active, field, isSent, form, streams, incomplete, sent, streaming,
        fun item different => Bool.eq_false_iff.mpr fun also => ?_⟩
      have place := books.streams active also
      rw [field] at place
      exact different (by exact_mod_cast place.symm)

/-- The streamer of the item delivers data. -/
theorem AtItem.delivers
    {fields : RequestFields}
    {pieces : List Piece}
    (item : AtItem w c r index fields pieces)
    (books : Books w)
    (sound : ∀ d, Live (w.clients d))
    (data : Data) :
    Extends w r fields (pieces ++ [.formData r data])
      (w.write c (.formData r data)) := by
  refine sent_extends books sound item.active item.isSent item.form
    (by simp [Piece.req]) ?_ (write_sent w c r (.formData r data))
  exact .item index item.field item.streams item.incomplete
    (.data data item.sent) item.streaming item.others

/-- The streamer of the item has finished, and the next items are sent. -/
theorem AtItem.resumes
    {fields : RequestFields}
    {pieces : List Piece}
    (item : AtItem w c r index fields pieces)
    (books : Books w)
    (sound : ∀ d, Live (w.clients d)) :
    (((w.finishing r index).setClient c
        { (w.finishing r index).clients c with
          formField := ((w.finishing r index).clients c).formField + 1 }).sendForm
        c).Post
      (Extends w r fields
        (pieces ++ (formPlan r).passage (fields.form.drop (index + 1))))
      (fun _ => False) (fun _ => True) := by
  generalize isMiddle :
    (w.finishing r index).setClient c
      { (w.finishing r index).clients c with
        formField := ((w.finishing r index).clients c).formField + 1 } = middle
  have active : (middle.clients c).request = some r := by
    simpa [← isMiddle, World.setClient, finishing, World.setRequest]
      using item.active
  have field : (middle.clients c).formField = ((index + 1 : Nat) : Int) := by
    simp [← isMiddle, World.setClient, finishing, World.setRequest, item.field]
  have form : (middle.requests r).form = fields.form := by
    simp [← isMiddle, World.setClient, finishing, World.setRequest, item.form]
  have streaming :
      (middle.requests r).streaming =
        Function.update (w.requests r).streaming index
          { (w.requests r).streaming index with running := false } := by
    simp [← isMiddle, World.setClient, finishing, World.setRequest]
  have completed : (middle.requests r).transferCompleted = false := by
    simpa [← isMiddle, World.setClient, finishing, World.setRequest]
      using item.incomplete
  have stopped :
      ∀ other, ((middle.requests r).streaming other).running = false := by
    intro other
    rw [streaming]
    by_cases here : other = index
    · rw [here, Function.update_self]
    · rw [Function.update_of_ne here]
      exact item.others other here
  have inside : index + 1 ≤ (middle.requests r).form.length := by
    obtain ⟨first, _, rest, _, _, isItems, isLength, _⟩ := item.sent.reaches
    rw [form, isItems, List.length_append, List.length_cons, isLength]
    omega
  refine (sendForm_pauses active field inside).imp ?_ (fun _ => id) (fun _ => id)
  rintro next ⟨paused, isNext⟩
  have passage :
      formStart r ((middle.requests r).form.drop (index + 1)) =
        (formPlan r).passage (fields.form.drop (index + 1)) := by
    rw [passage_formPlan, form]
  unfold SentForm at isNext
  rw [passage] at isNext
  have fromBefore :
      ∀ (place : Int) (queue : Nat) (streams : Nat → Streaming) (is : Bool)
        (chunks : List Piece),
        middle.sent c r place queue streams is chunks =
          w.sent c r place queue streams is chunks := by
    intro place queue streams is chunks
    simp [← isMiddle, World.sent, World.setClient, finishing, World.setRequest]
  rw [fromBefore] at isNext
  refine sent_extends books sound item.active item.isSent item.form ?_ ?_ isNext
  · intro piece member
    rw [passage_formPlan] at member
    have isStart :
        piece ∈
          startPieces r
            { form := fields.form.drop (index + 1), formStreaming := true } := by
      simpa [startPieces] using member
    exact notHead_of_startPieces isStart
  · have sent := item.sent.resume
    unfold Paused at paused
    rw [form] at paused
    generalize (formPlan r).stop fields.form (index + 1) = stop at paused sent
    cases stop with
    | none =>
        obtain ⟨isOver, same, isCompleted⟩ := paused
        refine .ended isOver (fun _ => ⟨isCompleted, sent⟩) ?_
        rw [same]
        exact stopped
    | some place =>
        obtain ⟨isPlace, started, same⟩ := paused
        refine .item place isPlace item.streams (same.trans completed) sent ?_ ?_
        · rw [started, Function.update_self]
          exact ⟨rfl, rfl⟩
        · intro other different
          rw [started, Function.update_of_ne different]
          exact stopped other

/-- The application sends a chunk of its own. -/
theorem sent_chunk_extends
    {fields : RequestFields}
    {pieces : List Piece}
    (piece : Piece)
    (books : Books w)
    (sound : ∀ d, Live (w.clients d))
    (active : (w.clients c).request = some r)
    (isSent : sentOf r w.trace = some (fields, pieces))
    (form : fields.form = (w.requests r).form)
    (notStreaming : fields.formStreaming = false)
    (isOver : (w.clients c).formField = -1)
    (behind : piece.req = r ∧ ∀ other head, piece ≠ .head other head)
    (completed : Bool) :
    Extends w r fields (pieces ++ [piece])
      (w.sent c r (w.clients c).formField ((w.clients c).tcp.writeQueue + 1)
        (w.requests r).streaming completed [piece]) := by
  refine sent_extends books sound active isSent form ?_ ?_ rfl
  · intro other member
    rw [List.mem_singleton.mp member]
    exact behind
  · refine .ended isOver (fun streams => ?_) fun item => ?_
    · rw [notStreaming] at streams
      cases streams
    · refine Bool.eq_false_iff.mpr fun runs => ?_
      have place := books.streams active runs
      omega

end Streaming

/-! ## The code and the entry points -/

section Steps

variable {w next : World} {c r : Nat}

/-- Pools, agents and clocks do not matter to the uploads. -/
theorem rests_of_same
    (clients : next.clients = w.clients)
    (requests : next.requests = w.requests)
    (trace : next.trace = w.trace) :
    Rests w next := by
  refine Rests.of_clients ?_ clients
  constructor <;> intros <;> simp [clients, requests, trace]

theorem rests_collect (w : World) (a : Nat) (cookies : Cookies) (uri : Uri) :
    Rests w (w.collect a cookies uri) := by
  unfold collect
  refine Rests.trans ?_ (Rests.emit _ fun _ => rfl)
  exact rests_of_same rfl rfl rfl

/-- A step that does nothing to the uploads. -/
theorem Rests.handles
    {frames : List Frame}
    (rests : Rests w next)
    (books : Books w)
    (sound : ∀ d, Live (w.clients d))
    (reports : Reports w frames) :
    Handles w (.next next frames) :=
  ((Serves.of_rests books rests).writes sound reports).handles

theorem handles_fault {reason : Fault} : Handles w (.fault reason) :=
  writes_fault.handles

/-- The code of every frame that does not belong to a redirect. -/
theorem code_handles
    {frame : Frame}
    (noRedirect : isRedirectFrame frame = false)
    (books : Books w)
    (sound : ∀ d, Live (w.clients d))
    (hears : ∀ d buffer buf, frame = .onRead d buffer buf → Hears w d) :
    Handles w (code frame w) := by
  cases frame with
  | callback callback =>
      exact (Rests.refl w).handles books sound (reports_nil w)
  | fire callback =>
      refine (Rests.emit w fun _ => rfl).handles books sound ?_
      intro d s answer _ member
      obtain ⟨listener, _, isFrame⟩ := List.mem_map.mp member
      cases listener <;> cases callback <;> cases isFrame
  | agentResponse a s response error =>
      refine Rests.handles ?_ books sound (reports_nil w)
      unfold agentResponse
      split
      · exact Rests.refl w
      · exact rests_collect w _ _ _
  | agentRedirect a contextUri topLevel c context =>
      obtain ⟨reason, _, faults⟩ | ⟨response, s, _, _, acts⟩ :=
        code_agentRedirect w a contextUri topLevel c context
      · rw [faults]
        exact handles_fault
      · rw [acts]
        refine Rests.handles ?_ books sound (reports_nil w)
        exact (rests_collect w a response.cookies context.uri).trans
          (rests_inject _ a s contextUri topLevel _)
  | onRead d buffer buf =>
      exact onReadLoop_handles books sound (hears d buffer buf rfl) buffer buf
  | continued d =>
      refine Rests.handles ?_ books sound (reports_nil w)
      exact Rests.setClient w d rfl rfl
        (fun live => ⟨live.wired, live.opened, live.hears⟩) fun _ => id
  | rethrow =>
      constructor
      · rintro next frames ⟨⟩
      · rintro next ⟨⟩
        exact Turns.refl books sound
  | cancelReturn p key ticket generation =>
      change Handles w (w.cancelReturn p key ticket generation)
      unfold cancelReturn
      dsimp only
      split
      · exact handles_fault
      · split
        · exact (Rests.setEntry w p key _).handles books sound (reports_nil w)
        · exact handles_fault
  | redirected _ | redirectCatch _ =>
      cases noRedirect

/-- A request is submitted by the application. -/
theorem Serves.submits
    {straight : Straight}
    (sound : ∀ d, Live (w.clients d))
    (post : straight.Post (Serves w) (Serves w) (fun _ => True))
    (pool : Option Nat)
    (loop : Nat) :
    Handles w (straight.before (acceptedOn pool loop r)) := by
  cases straight with
  | ok middle =>
      have served : Serves w middle := post
      have accepted :
          Rests middle
            (middle.emit
              (.accepted r pool loop (middle.now loop)
                (middle.requests r).timeout)) :=
        Rests.emit middle fun _ => rfl
      have turns := served.turns sound
      constructor
      · rintro next frames ⟨⟩
        refine ⟨reports_nil w, Or.inl ?_⟩
        have after :=
          (Serves.of_rests served.books accepted).turns turns.sound
        refine ⟨after.books, after.sound, fun d => after.hears d ∘ turns.hears d,
          turns.begun, fun s => ?_⟩
        rcases turns.sent s with same | ⟨unlinked, d, fields, isActive, isSent⟩
        · exact Or.inl ((accepted.sent s).trans same)
        · exact Or.inr
            ⟨unlinked, d, fields, isActive, (accepted.sent s).trans isSent⟩
      · rintro next ⟨⟩
  | raise middle =>
      have served : Serves w middle := post
      constructor
      · rintro next frames ⟨⟩
      · rintro next ⟨⟩
        exact served.turns sound
  | fault reason =>
      exact handles_fault

/-- The calls and events that add to no form, and do not end a stream. -/
def isApart : Input → Bool
  | .sendChunk _ _ => false
  | .sendFinalChunk _ _ => false
  | .streamData _ _ _ => false
  | .streamFinish _ _ _ => false
  | .onEof _ _ _ => false
  | _ => true

theorem accept_handles
    {input : Input}
    {top : Option Frame}
    {outcome : Step}
    (apart : isApart input = true)
    (introduced : Introduced w)
    (books : Books w)
    (sound : ∀ d, Live (w.clients d))
    (accepted : accept input top w = some outcome) :
    Handles w outcome := by
  have stays :
      ∀ {next : World}, Rests w next → Handles w (.next next []) :=
    fun rests => rests.handles books sound (reports_nil w)
  cases input with
  | edit s fields =>
      simp only [accept] at accepted
      split at accepted
      · rename_i may
        cases accepted
        refine stays (Rests.of_clients (Same.setRequest w s rfl ?_ ?_ rfl) rfl)
        · intro linked
          simp only [mayEdit, Bool.and_eq_true, decide_eq_true_eq] at may
          exact may.2.resolve_right linked
        · by_cases same : fields.form = (w.requests s).form
          · exact Or.inl (by simp [edited, same])
          · simp only [mayEdit, Bool.and_eq_true, decide_eq_true_eq] at may
            exact Or.inr ⟨may.2.resolve_left same, by simp [edited, same]⟩
      · cases accepted
  | listen s =>
      cases top <;> simp only [accept, reduceCtorEq] at accepted
      cases accepted
      exact stays (Rests.of_clients
        (Same.setRequest w s rfl (fun _ => rfl) (Or.inl rfl) rfl) rfl)
  | newClient loop =>
      cases accepted
      exact stays (rests_newClient introduced books loop none)
  | clientRequest d s =>
      simp only [accept] at accepted
      split at accepted
      · cases accepted
        exact Serves.submits sound (clientRequest_serves books (sound d) s) _ _
      · cases accepted
  | poolRequest p s =>
      cases accepted
      exact Serves.submits sound (poolRequest_serves introduced books sound p s) _ _
  | agentRequest a s contextUri topLevel =>
      cases accepted
      exact Serves.submits sound
        (agentRequest_serves introduced books sound a s contextUri topLevel) _ _
  | cancel s error =>
      cases accepted
      exact (requestCancel_writes books sound s error).handles
  | clientCancel d error =>
      cases accepted
      exact (cancel_writes (Halts.refl (sound d)) books sound error).handles
  | maxConnections p value =>
      cases accepted
      exact stays (rests_of_same rfl rfl rfl)
  | advance loop milliseconds =>
      cases top <;> simp only [accept, reduceCtorEq] at accepted
      cases accepted
      exact stays (rests_of_same rfl rfl rfl)
  | onConnect d error =>
      cases top <;> simp only [accept, reduceCtorEq] at accepted
      split at accepted
      · rename_i connecting
        split at accepted <;> cases accepted
        · refine stays (Rests.setClient w d rfl rfl (fun live => ?_) fun _ => id)
          refine ⟨fun _ => live.wired (by simp [connecting]), ?_, live.hears⟩
          simp
        · refine (cancel_writes ?_ books sound _).handles
          exact (Halts.refl (sound d)).setClient rfl rfl (by simp)
      · cases accepted
  | onWrite d error =>
      cases top <;> simp only [accept, reduceCtorEq] at accepted
      split at accepted
      · split at accepted <;> cases accepted
        · exact stays (Rests.setTcp w d rfl rfl rfl)
        · refine (cancel_writes ?_ books sound _).handles
          exact (Halts.refl (sound d)).setClient rfl rfl (sound d).wired
      · cases accepted
  | onRead d buf =>
      cases top <;> simp only [accept, reduceCtorEq] at accepted
      split at accepted <;> cases accepted
      refine Rests.handles ?_ books sound (by simp [Reports])
      have counted : Rests w { w with nextBuffer := w.nextBuffer + 1 } :=
        rests_of_same rfl rfl rfl
      exact counted.trans (Rests.emit _ fun _ => rfl)
  | onReadError d error =>
      cases top <;> simp only [accept, reduceCtorEq] at accepted
      split at accepted <;> cases accepted
      exact (cancel_writes (Halts.refl (sound d)) books sound _).handles
  | onTimer s =>
      cases top <;> simp only [accept, reduceCtorEq] at accepted
      split at accepted
      · cases accepted
      · rename_i timer _
        split at accepted
        · cases accepted
        · split at accepted <;> cases accepted
          have rests :
              Rests w
                (w.setRequest s
                  { w.requests s with
                    timer := some { timer with deadline := none } }) :=
            Rests.setRequest w s rfl rfl rfl rfl
          unfold fireTimer
          dsimp only
          split
          · exact (Writes.after rests
              (onTimer_writes (books.same rests.toSame)
                (fun d => rests.sound d (sound d)) s)).handles
          · exact stays rests
  | checkInactivity p =>
      cases top <;> simp only [accept, reduceCtorEq] at accepted
      split at accepted <;> cases accepted
      exact stays (rests_of_same rfl rfl rfl)
  | _ =>
      cases apart

end Steps

/-! ## What a step does -/

/-- What a step does to the uploads, some of which may grow in it. -/
structure Uploads (w : World) (grows : Nat → Prop) (next : World) : Prop where
  books : Books next
  begun :
    ∀ c r,
      (next.clients c).request = some r →
      (w.clients c).request = some r ∨ (w.requests r).client = none
  stays :
    ∀ c r,
      grows r →
      (w.clients c).request = some r →
      (next.clients c).request = some r
  sent :
    ∀ r fields pieces,
      ¬ grows r →
      sentOf r w.trace = some (fields, pieces) →
      fields.formStreaming = true →
      sentOf r next.trace = some (fields, pieces) ∨ Begins w next r

/-- What is known of the clients where no redirect is followed. -/
structure Attends (reads : Nat → Prop) (next : World) : Prop where
  live : ∀ d, Live (next.clients d)
  hears : ∀ d, reads d → Hears next d

/-- The outcome of code in which no redirect is followed yet. -/
inductive Deals
    (w : World)
    (reads grows : Nat → Prop)
    (step : Step) :
    Prop where
  | handles {base : World} :
      Same w base →
      Attends reads base →
      Handles base step →
      (∀ r, ¬ grows r) →
      Deals w reads grows step
  | adds {next : World} {r : Nat} {fields : RequestFields} {pieces : List Piece} :
      step = .next next [] →
      (∀ d, reads d → Hears w d) →
      Extends w r fields pieces next →
      (fields.formStreaming = true → grows r) →
      (∃ before, sentOf r w.trace = some (fields, before)) →
      Deals w reads grows step
  | fails {reason : Fault} : step = .fault reason → Deals w reads grows step

section

variable {w base next : World} {reads grows : Nat → Prop} {step : Step}

/-- What has been written of a request does not change, or it has been started. -/
theorem uploads_of_turns
    (same : Same w base)
    (turns : Turns base next)
    (none : ∀ r, ¬ grows r) :
    Uploads w grows next where
  books := turns.books
  begun c r active := by
    rw [← same.request, ← same.link]
    exact turns.begun c r active
  stays _ r isGrowing := (none r isGrowing).elim
  sent r _ _ _ isSent _ := by
    rcases turns.sent r with kept | ⟨unlinked, started⟩
    · exact Or.inl ((kept.trans (same.sent r)).trans isSent)
    · exact Or.inr ⟨(same.link r).symm.trans unlinked, started⟩

theorem uploads_of_same
    (books : Books w)
    (same : Same w next)
    (none : ∀ r, ¬ grows r) :
    Uploads w grows next where
  books := books.same same
  begun c _ active := Or.inl ((same.request c).symm.trans active)
  stays _ r isGrowing := (none r isGrowing).elim
  sent r _ _ _ isSent _ := Or.inl ((same.sent r).trans isSent)

theorem Same.uploading
    {c r : Nat}
    (same : Same w base)
    (uploading : Uploading w c r) :
    Uploading base c r := by
  obtain ⟨active, fields, pieces, isSent, others⟩ := uploading
  exact ⟨(same.request c).trans active, fields, pieces,
    (same.sent r).trans isSent, others⟩

theorem Deals.uploads
    {frames : List Frame}
    (deals : Deals w reads grows (.next next frames))
    (books : Books w) :
    Uploads w grows next ∧
      Reports w frames ∧
      (Attends reads next ∨
        ∃ frame ∈ frames, isRedirectFrame frame = true) := by
  cases deals with
  | @handles base same attends handles none =>
      obtain ⟨reports, turned⟩ := handles.next next frames rfl
      have reported : Reports w frames :=
        fun c r answer uploading => reports c r answer (same.uploading uploading)
      rcases turned with turns | ⟨announces, isRedirect⟩
      · refine ⟨uploads_of_turns same turns none, reported, Or.inl ?_⟩
        exact ⟨turns.sound, fun d isRead => turns.hears d (attends.hears d isRead)⟩
      · exact ⟨uploads_of_same books (same.trans announces) none, reported,
          Or.inr isRedirect⟩
  | @adds next r fields pieces isNext hears adds isGrowing wasSent =>
      cases isNext
      refine ⟨⟨adds.books, fun c s active => ?_, fun c s _ active => ?_,
        fun s other chunks still isSent streams => ?_⟩, reports_nil w,
        Or.inl ⟨adds.sound, fun d isRead => adds.hears d (hears d isRead)⟩⟩
      · exact Or.inl ((adds.request c).symm.trans active)
      · exact (adds.request c).trans active
      · by_cases here : s = r
        · subst s
          obtain ⟨before, wasSent⟩ := wasSent
          rw [wasSent] at isSent
          cases isSent
          exact (still (isGrowing streams)).elim
        · exact Or.inl ((adds.others s here).trans isSent)
  | fails isFault =>
      cases isFault

theorem Deals.raised
    (deals : Deals w reads grows (.raise next)) :
    Uploads w grows next ∧ Attends reads next := by
  cases deals with
  | @handles base same attends handles none =>
      have turns := handles.raise next rfl
      exact ⟨uploads_of_turns same turns none, turns.sound,
        fun d isRead => turns.hears d (attends.hears d isRead)⟩
  | adds isNext _ _ _ _ =>
      cases isNext
  | fails isFault =>
      cases isFault

/-- Code that adds to no form. -/
theorem Handles.deals
    (handles : Handles w step)
    (sound : ∀ d, Live (w.clients d))
    (hears : ∀ d, reads d → Hears w d)
    (none : ∀ r, ¬ grows r) :
    Deals w reads grows step :=
  .handles (Same.refl w) ⟨sound, hears⟩ handles none

/-- The stream of a client has ended; a response without a length ends with it. -/
theorem onEof_deals
    {c connection : Nat}
    {status : TcpStatus}
    (books : Books w)
    (sound : ∀ d, Live (w.clients d))
    (nothing : ∀ d, ¬ reads d)
    (wired : (w.clients c).tcp.connection = some connection)
    (isOpen : status ≠ .closed)
    (error : Option ErrorCode)
    (response : Response)
    (none : ∀ r, ¬ grows r) :
    Deals w reads grows
      (((w.setTcp c
        { (w.clients c).tcp with eof := true, status := status }).emit
        (.ended c connection)).onEof c error response) := by
  generalize isEnded :
    (w.setTcp c { (w.clients c).tcp with eof := true, status := status }).emit
      (.ended c connection) = ended
  have same : Same w ended := by
    rw [← isEnded]
    exact (Same.setTcp w c _).trans (Same.emit _ fun _ => rfl)
  -- the client of the stream needs no parser any more
  have lives :
      ∀ client : ClientSide.Client,
        client.tcp = (ended.clients c).tcp → Live client := by
    intro client isTcp
    have isEof : (ended.clients c).tcp =
        { (w.clients c).tcp with eof := true, status := status } := by
      simp [← isEnded, World.emit, World.setTcp, World.setClient]
    rw [isEof] at isTcp
    exact ⟨fun _ => by simp [isTcp, wired], fun _ => by simpa [isTcp] using isOpen,
      fun _ => Or.inr (by simp [isTcp])⟩
  have live : ∀ d, Live (ended.clients d) := by
    intro d
    by_cases here : d = c
    · rw [here]
      exact lives _ rfl
    · have kept : ended.clients d = w.clients d := by
        simp [← isEnded, World.emit, World.setTcp, World.setClient, here]
      rw [kept]
      exact sound d
  have endedBooks := books.same same
  have attends : Attends reads ended :=
    ⟨live, fun d isRead => (nothing d isRead).elim⟩
  unfold onEof
  dsimp only
  split
  · rename_i idle
    exact .handles same attends
      ((Rests.reset ended c idle).handles endedBooks live (reports_nil ended)) none
  · exact .fails rfl
  · rename_i r parsing _ _
    generalize isAnswered :
      ended.setClient c
        { ended.clients c with
          response := some { response with isDone := true }
          parsing := Option.none } = answered
    have sameAnswered : Same ended answered := by
      rw [← isAnswered]
      exact Same.setClient ended c rfl rfl
    have liveAnswered : ∀ d, Live (answered.clients d) := by
      intro d
      by_cases here : d = c
      · rw [here]
        exact lives _ (by simp [← isAnswered, World.setClient])
      · have kept : answered.clients d = ended.clients d := by
          simp [← isAnswered, World.setClient, here]
        rw [kept]
        exact live d
    have answeredBooks := endedBooks.same sameAnswered
    refine .handles (same.trans sameAnswered)
      ⟨liveAnswered, fun d isRead => (nothing d isRead).elim⟩ ?_ none
    split
    · exact (cancel_writes (Halts.refl (liveAnswered c)) answeredBooks
        liveAnswered _).handles
    · exact analyzeRequest_handles (Halts.refl (liveAnswered c))
        (fun _ _ _ => Rests.refl answered) answeredBooks liveAnswered

/-- The checks of the chunk functions leave a request that has no form. -/
theorem requestSend_deals
    {r : Nat}
    {send : Nat → Step}
    (books : Books w)
    (sound : ∀ d, Live (w.clients d))
    (hears : ∀ d, reads d → Hears w d)
    (none : ∀ s, ¬ grows s)
    (leaves : ∀ c ∈ (w.requests r).client, ¬ w.InForm c)
    (sends :
      ∀ c fields pieces,
        (w.clients c).request = some r →
        sentOf r w.trace = some (fields, pieces) →
        fields.form = (w.requests r).form →
        fields.formStreaming = false →
        (w.clients c).formField = -1 →
        Deals w reads grows (send c)) :
    Deals w reads grows (w.requestSend r send) := by
  have throws :
      ∀ exception,
        Deals w reads grows
          ((w.throwing exception).before fun w => .next w []) := by
    intro exception
    refine Handles.deals ?_ sound hears none
    constructor
    · rintro next frames ⟨⟩
    · rintro next ⟨⟩
      exact (Serves.of_rests books (Rests.emit w fun _ => rfl)).turns sound
  unfold requestSend
  dsimp only
  split
  · exact throws _
  · rename_i notCompleted
    split
    · exact throws _
    · rename_i c linked
      split
      · rename_i active
        obtain ⟨fields, pieces, isSent, form, progress⟩ := books.holds c r active
        cases progress with
        | ended isOver complete =>
            refine sends c fields pieces active isSent form ?_ isOver
            exact Bool.eq_false_iff.mpr fun streams =>
              notCompleted (complete streams).1
        | item index field _ _ _ _ =>
            refine (leaves c linked ?_).elim
            unfold InForm
            rw [field]
            exact Int.natCast_nonneg index
      · exact .fails rfl

/-- A streamer delivers data, or finishes without an error. -/
def Grows (label : Label) (r : Nat) : Prop :=
  (∃ item data, label = .input (.streamData r item data)) ∨
    ∃ item, label = .input (.streamFinish r item none)

/-- The stream of a client ends. -/
def isEnd : Input → Bool
  | .onEof _ _ _ => true
  | _ => false

/-- The streamer of an item has finished without an error. -/
theorem streamFinish_resumes
    {c r index : Nat}
    (books : Books w)
    (sound : ∀ d, Live (w.clients d))
    (runs : ((w.requests r).streaming index).running = true)
    (streamer : ((w.requests r).streaming index).streamer = some c) :
    ∃ fields pieces,
      AtItem w c r index fields pieces ∧
        ((∃ next,
            (w.finishing r index).formFileComplete c none = .next next [] ∧
              Extends w r fields
                (pieces ++ (formPlan r).passage (fields.form.drop (index + 1)))
                next) ∨
          ∃ reason,
            (w.finishing r index).formFileComplete c none = .fault reason) := by
  obtain ⟨fields, pieces, item⟩ := books.atItem runs streamer
  refine ⟨fields, pieces, item, ?_⟩
  have resumes := item.resumes books sound
  unfold formFileComplete
  dsimp only
  generalize World.sendForm _ c = straight at resumes ⊢
  cases straight with
  | ok next =>
      exact Or.inl ⟨next, rfl, resumes⟩
  | raise next =>
      exact resumes.elim
  | fault reason =>
      exact Or.inr ⟨reason, rfl⟩

theorem accept_deals
    {input : Input}
    {top : Option Frame}
    (introduced : Introduced w)
    (books : Books w)
    (sound : ∀ d, Live (w.clients d))
    (leaves : w.LeavesForms input)
    (accepted : accept input top w = some step) :
    Deals w (fun d => isEnd input = false ∧ Hears w d) (Grows (.input input))
      step := by
  have hears :
      ∀ d, isEnd input = false ∧ Hears w d → Hears w d := fun d => And.right
  cases apart : isApart input with
  | true =>
      refine (accept_handles apart introduced books sound accepted).deals sound
        hears ?_
      rintro r (⟨item, data, isInput⟩ | ⟨item, isInput⟩) <;> cases isInput <;>
        cases apart
  | false =>
      cases input with
      | sendChunk r data =>
          have none : ∀ s, ¬ Grows (.input (.sendChunk r data)) s := by
            rintro s (⟨_, _, ⟨⟩⟩ | ⟨_, ⟨⟩⟩)
          cases accepted
          refine requestSend_deals books sound hears none leaves ?_
          intro c fields pieces active isSent form notStreaming isOver
          split
          · exact ((Rests.refl w).handles books sound (reports_nil w)).deals sound
              hears none
          · have adds :=
              sent_chunk_extends (.chunk r data) books sound active isSent form
                notStreaming isOver (by simp [Piece.req])
                (w.requests r).transferCompleted
            rw [← write_sent w c r] at adds
            exact .adds rfl hears adds (by simp [notStreaming]) ⟨pieces, isSent⟩
      | sendFinalChunk r data =>
          have none : ∀ s, ¬ Grows (.input (.sendFinalChunk r data)) s := by
            rintro s (⟨_, _, ⟨⟩⟩ | ⟨_, ⟨⟩⟩)
          cases accepted
          refine requestSend_deals books sound hears none leaves ?_
          intro c fields pieces active isSent form notStreaming isOver
          have writes :
              (w.setRequest r
                  { w.requests r with transferCompleted := true }).write c
                  (.finalChunk r data) =
                w.sent c r (w.clients c).formField
                  ((w.clients c).tcp.writeQueue + 1) (w.requests r).streaming
                  true [.finalChunk r data] := by
            rw [write_sent _ c r]
            simp [World.sent, World.setRequest]
          have adds :=
            sent_chunk_extends (.finalChunk r data) books sound active isSent form
              notStreaming isOver (by simp [Piece.req]) true
          rw [← writes] at adds
          exact .adds rfl hears adds (by simp [notStreaming]) ⟨pieces, isSent⟩
      | streamData r item data =>
          cases top <;> simp only [accept, reduceCtorEq] at accepted
          split at accepted <;> cases accepted
          rename_i c runs streamer
          obtain ⟨fields, pieces, atItem⟩ := books.atItem runs streamer
          refine .adds rfl hears (atItem.delivers books sound data)
            (fun _ => Or.inl ⟨item, data, rfl⟩) ⟨pieces, atItem.isSent⟩
      | streamFinish r item error =>
          cases top <;> simp only [accept, reduceCtorEq] at accepted
          split at accepted <;> cases accepted
          rename_i c runs streamer
          cases error with
          | none =>
              obtain ⟨fields, pieces, atItem, outcome⟩ :=
                streamFinish_resumes books sound runs streamer
              rcases outcome with ⟨next, isNext, adds⟩ | ⟨reason, isFault⟩
              · exact .adds isNext hears adds (fun _ => Or.inr ⟨item, rfl⟩)
                  ⟨pieces, atItem.isSent⟩
              · exact .fails isFault
          | some error =>
              obtain ⟨active, _⟩ := books.runner runs streamer
              refine ((formFileComplete_fails books sound runs streamer
                error).writes books active).handles.deals sound hears ?_
              rintro s (⟨_, _, ⟨⟩⟩ | ⟨_, ⟨⟩⟩)
      | onEof c error response =>
          cases top <;> simp only [accept, reduceCtorEq] at accepted
          split at accepted <;> cases accepted
          rename_i connection status _ wired
          have none : ∀ s, ¬ Grows (.input (.onEof c error response)) s := by
            rintro s (⟨_, _, ⟨⟩⟩ | ⟨_, ⟨⟩⟩)
          refine onEof_deals books sound ?_ wired ?_ error response none
          · rintro d ⟨⟨⟩, _⟩
          · split <;> simp
      | _ =>
          cases apart

end

/-! ## Where a stream is being read -/

section Reading

variable {w next : World} {c d : Nat} {frames : List Frame}

/-- `on_read` of a client goes on. -/
def Reading (stack : List Frame) (d : Nat) : Prop :=
  ∃ buffer buf, .onRead d buffer buf ∈ stack

theorem Unmarked.notReading (unmarked : Unmarked frames) : ¬ Reading frames d := by
  rintro ⟨buffer, buf, member⟩
  have isMarked := unmarked _ member
  cases isMarked

theorem cancel_notReading
    {error : Option ErrorCode}
    (executed : w.cancel c error = .next next frames) :
    ¬ Reading frames d := by
  rcases cancel_next executed with ⟨_, _, rfl⟩ | ⟨_, _, _, rfl⟩
  · exact unmarked_nil.notReading
  · exact (unmarked_endFrames _ _ _).notReading

theorem finishRequest_notReading
    {error : Option ErrorCode}
    (executed : w.finishRequest c error = .next next frames) :
    ¬ Reading frames d := by
  obtain ⟨_, _, _, rfl⟩ := finishRequest_next executed
  exact (unmarked_endFrames _ _ _).notReading

theorem analyzeRequest_notReading
    (executed : w.analyzeRequest c = .next next frames) :
    ¬ Reading frames d := by
  have analyses := analyzeRequest_analyses w c
  generalize w.analyzeRequest c = step at analyses executed
  cases analyses with
  | fails reason =>
      cases executed
  | continues r _ _ =>
      cases executed
      rintro ⟨buffer, buf, member⟩
      simp at member
  | unexpected _ _ =>
      exact cancel_notReading executed
  | limited _ _ _ =>
      exact cancel_notReading executed
  | unlocated _ _ _ _ =>
      exact cancel_notReading executed
  | redirects context _ =>
      cases executed
      rintro ⟨buffer, buf, member⟩
      simp at member
  | finishes _ =>
      exact finishRequest_notReading executed

/-- Only `on_read` goes on with `on_read`, on the same stream. -/
theorem code_reading
    {frame : Frame}
    (noRedirect : isRedirectFrame frame = false)
    (executed : code frame w = .next next frames)
    (reading : Reading frames d) :
    ∃ buffer buf, frame = .onRead d buffer buf := by
  cases frame with
  | onRead c buffer buf =>
      have executedLoop : w.onReadLoop c buffer buf = .next next frames := executed
      refine ⟨buffer, buf, ?_⟩
      suffices same : d = c by rw [same]
      cases buf with
      | nil =>
          cases executedLoop
          exact (unmarked_nil.notReading reading).elim
      | cons result rest =>
          cases context : (w.clients c).parsing with
          | none =>
              simp only [onReadLoop, context] at executedLoop
              cases executedLoop
              exact (unmarked_nil.notReading reading).elim
          | some parsing =>
              simp only [onReadLoop, context] at executedLoop
              cases result with
              | error error response =>
                  exact (cancel_notReading executedLoop reading).elim
              | headers =>
                  cases executedLoop
                  exact (unmarked_nil.notReading reading).elim
              | body response =>
                  have stirs := receivePart_stirs c (Parsed.body response).response
                    (Adjusts.parseShift w c buffer parsing (.body response))
                  exact ((stirs.next next frames executedLoop).2.notReading
                    reading).elim
              | done response =>
                  obtain ⟨first, isNext, rfl⟩ := andFrames_next executedLoop
                  obtain ⟨other, others, member⟩ := reading
                  rcases List.mem_append.mp member with early | late
                  · exact (analyzeRequest_notReading isNext
                      ⟨other, others, early⟩).elim
                  · simp only [List.mem_singleton, Frame.onRead.injEq] at late
                    exact late.1
  | fire callback =>
      cases executed
      obtain ⟨buffer, buf, member⟩ := reading
      obtain ⟨listener, _, isFrame⟩ := List.mem_map.mp member
      cases listener <;> cases callback <;> cases isFrame
  | redirected _ | redirectCatch _ =>
      cases noRedirect
  | _ =>
      have unmarked := ((code_stirs w rfl).next next frames executed).2
      exact (unmarked.notReading reading).elim

/-- `on_read` begins where the client of a request has a parser for it. -/
theorem accept_reading
    {input : Input}
    {top : Option Frame}
    (sound : ∀ d, Live (w.clients d))
    (accepted : accept input top w = some (.next next frames))
    (reading : Reading frames d) :
    isEnd input = false ∧ Hears w d := by
  cases reception : isReception input with
  | false =>
      have unmarked :=
        ((accept_stirs reception accepted).next next frames rfl).2
      exact (unmarked.notReading reading).elim
  | true =>
      cases input with
      | onRead c buf =>
          cases top <;> simp only [accept, reduceCtorEq] at accepted
          split at accepted <;> cases accepted
          rename_i connection _ notEof _
          obtain ⟨buffer, parsed, member⟩ := reading
          simp only [List.mem_singleton, Frame.onRead.injEq] at member
          obtain ⟨rfl, _, _⟩ := member
          refine ⟨rfl, fun active => ?_⟩
          refine ((sound d).hears active).resolve_right ?_
          simp [notEof]
      | onEof c error response =>
          cases top <;> simp only [accept, reduceCtorEq] at accepted
          split at accepted
          · simp only [Option.some.injEq] at accepted
            unfold onEof at accepted
            dsimp only at accepted
            split at accepted
            · cases accepted
              exact (unmarked_nil.notReading reading).elim
            · cases accepted
            · split at accepted
              · exact (cancel_notReading accepted reading).elim
              · exact (analyzeRequest_notReading accepted reading).elim
          · cases accepted
      | streamFinish r item error =>
          cases top <;> simp only [accept, reduceCtorEq] at accepted
          split at accepted
          · simp only [Option.some.injEq] at accepted
            unfold formFileComplete at accepted
            split at accepted
            · exact (finishRequest_notReading accepted reading).elim
            · obtain ⟨_, _, isNext⟩ := Straight.before_next accepted
              cases isNext
              exact (unmarked_nil.notReading reading).elim
          · cases accepted
      | _ =>
          cases reception

end Reading

/-! ## Runs -/

section Run

/-- What holds between the steps: a redirect that is followed ends it. -/
def Known (w : World) (stack : List Frame) : Prop :=
  Books w ∧
    ((∃ frame ∈ stack, isRedirectFrame frame = true) ∨
      Attends (Reading stack) w)

/-- Unwinding leaves no new frames where no redirect is followed. -/
theorem mem_unwind_of_unredirected
    {frame : Frame}
    {stack : List Frame}
    (none : ∀ other ∈ stack, isRedirectFrame other = false)
    (member : frame ∈ machine.unwind stack) :
    frame ∈ stack := by
  induction stack with
  | nil =>
      exact member
  | cons top rest inductionHypothesis =>
      unfold CallMachine.Machine.unwind at member
      split at member
      · exact member
      · have others := fun other below => none other (List.mem_cons_of_mem top below)
        cases top with
        | redirected c =>
            cases none _ List.mem_cons_self
        | _ =>
            exact List.mem_cons_of_mem _ (inductionHypothesis others member)

theorem Attends.mono
    {w : World}
    {reads fewer : Nat → Prop}
    (attends : Attends reads w)
    (all : ∀ d, fewer d → reads d) :
    Attends fewer w :=
  ⟨attends.live, fun d isRead => attends.hears d (all d isRead)⟩

/-- What a step of a run does, and what holds after it. -/
structure Turned (before : Config) (label : Label) (after : Config) : Prop where
  uploads : Uploads before.state (Grows label) after.state
  known : Known after.state after.stack
  reports :
    ∀ c r answer,
      Uploading before.state c r →
      .fire (.responseEvent r answer none) ∈ after.stack →
      .fire (.responseEvent r answer none) ∈ before.stack

theorem turned_of_deals
    {before : Config}
    {label : Label}
    {below : List Frame}
    {reads : Nat → Prop}
    {outcome : Step}
    (books : Books before.state)
    (deals : Deals before.state reads (Grows label) outcome)
    (isBelow : ∀ frame ∈ below, frame ∈ before.stack)
    (unredirected : ∀ frame ∈ before.stack, isRedirectFrame frame = false)
    (belowReads : ∀ d, Reading below d → reads d)
    (reading :
      ∀ next frames d, outcome = .next next frames → Reading frames d → reads d)
    (noFault : (machine.resume before below outcome).fault = none) :
    Turned before label (machine.resume before below outcome) := by
  cases outcome with
  | next next frames =>
      obtain ⟨uploads, reports, attends⟩ := deals.uploads books
      refine ⟨uploads, ⟨uploads.books, ?_⟩, ?_⟩
      · rcases attends with attends | ⟨frame, member, isRedirect⟩
        · refine Or.inr (attends.mono ?_)
          rintro d ⟨buffer, buf, member⟩
          rcases List.mem_append.mp member with early | late
          · exact reading next frames d rfl ⟨buffer, buf, early⟩
          · exact belowReads d ⟨buffer, buf, late⟩
        · exact Or.inl ⟨frame, List.mem_append_left below member, isRedirect⟩
      · intro c r answer uploading member
        rcases List.mem_append.mp member with early | late
        · exact (reports c r answer uploading early).elim
        · exact isBelow _ late
  | raise next =>
      obtain ⟨uploads, attends⟩ := deals.raised
      have belowNone : ∀ frame ∈ below, isRedirectFrame frame = false :=
        fun frame member => unredirected frame (isBelow frame member)
      refine ⟨uploads, ⟨uploads.books, Or.inr (attends.mono ?_)⟩, ?_⟩
      · rintro d ⟨buffer, buf, member⟩
        exact belowReads d
          ⟨buffer, buf, mem_unwind_of_unredirected belowNone member⟩
      · intro c r answer _ member
        exact isBelow _ (mem_unwind_of_unredirected belowNone member)
  | fault reason =>
      cases noFault

theorem turned_of_step
    {before after : Config}
    {label : Label}
    (permitted : KeepsForms before label)
    (introduced : Introduced before.state)
    (known : Known before.state before.stack)
    (stepped : machine.step? before label = some after)
    (noFault : after.fault = none) :
    Turned before label after := by
  obtain ⟨unredirected, leaves⟩ := permitted
  obtain ⟨books, redirects | attends⟩ := known
  · obtain ⟨frame, member, isRedirect⟩ := redirects
    rw [unredirected frame member] at isRedirect
    cases isRedirect
  have still :
      ∀ {below : List Frame},
        (∀ r, ¬ Grows label r) →
        (∀ frame ∈ below, frame ∈ before.stack) →
        Turned before label ⟨before.state, below, none⟩ := by
    intro below noGrowth isBelow
    refine ⟨uploads_of_same books (Same.refl _) noGrowth,
      ⟨books, Or.inr (attends.mono ?_)⟩, fun _ _ _ _ => isBelow _⟩
    rintro d ⟨buffer, buf, member⟩
    exact ⟨buffer, buf, isBelow _ member⟩
  cases CallMachine.Machine.steps_of_step? stepped with
  | @tick frame rest onTop isCode =>
      have member : frame ∈ before.stack := by
        rw [onTop]
        exact List.mem_cons_self
      have hears :
          ∀ d buffer buf, frame = .onRead d buffer buf →
            Hears before.state d := by
        rintro d buffer buf rfl
        exact attends.hears d ⟨buffer, buf, member⟩
      have handles :=
        code_handles (unredirected frame member) books attends.live hears
      refine turned_of_deals books
        (handles.deals attends.live attends.hears ?_) ?_ unredirected ?_ ?_ noFault
      · rintro r (⟨_, _, ⟨⟩⟩ | ⟨_, ⟨⟩⟩)
      · intro other isBelow
        rw [onTop]
        exact List.mem_cons_of_mem frame isBelow
      · rintro d ⟨buffer, buf, isBelow⟩
        refine ⟨buffer, buf, ?_⟩
        rw [onTop]
        exact List.mem_cons_of_mem frame isBelow
      · intro next frames d executed reading
        obtain ⟨buffer, buf, rfl⟩ :=
          code_reading (unredirected frame member) executed reading
        exact ⟨buffer, buf, member⟩
  | @ret frame rest onTop _ =>
      refine still ?_ fun other isBelow => ?_
      · rintro r (⟨_, _, ⟨⟩⟩ | ⟨_, ⟨⟩⟩)
      · rw [onTop]
        exact List.mem_cons_of_mem frame isBelow
  | @throw frame rest onTop _ =>
      refine still ?_ fun other isBelow => ?_
      · rintro r (⟨_, _, ⟨⟩⟩ | ⟨_, ⟨⟩⟩)
      · rw [onTop]
        refine List.mem_cons_of_mem frame (mem_unwind_of_unredirected ?_ isBelow)
        intro below isRest
        exact unredirected below (by rw [onTop]; exact List.mem_cons_of_mem _ isRest)
  | @input called outcome boundary accepted =>
      have deals :=
        accept_deals introduced books attends.live (leaves called rfl) accepted
      refine turned_of_deals books deals (fun _ => id) unredirected ?_ ?_ noFault
      · intro d reading
        refine ⟨?_, attends.hears d reading⟩
        cases ends : isEnd called with
        | false =>
            rfl
        | true =>
            -- the end of a stream is reported only when nothing runs
            cases called with
            | onEof c error response =>
                obtain ⟨isEmpty, _⟩ := accept_receives rfl accepted
                rw [List.head?_eq_none_iff.mp isEmpty] at reading
                exact (unmarked_nil.notReading reading).elim
            | _ =>
                cases ends
      · rintro next frames d rfl reading
        exact accept_reading attends.live accepted reading

theorem endsUpload_of_quits
    {before : Config}
    {below : List Frame}
    {c r : Nat}
    {given : Option ErrorCode}
    {error : ErrorCode}
    {outcome : Step}
    (quits : Quits before.state c r given outcome)
    (isError : before.state.finishError r given = some error)
    (noRaise : ∀ next, outcome ≠ .raise next)
    (ending :
      ∀ next frames,
        outcome = .next next frames →
        ∃ events,
          next.trace = before.state.trace ++ events ∧ ends events = [r])
    (noFault : (machine.resume before below outcome).fault = none) :
    EndsUpload before (machine.resume before below outcome) r error := by
  cases outcome with
  | next next frames =>
      obtain ⟨_, ⟨gone, sent, stopped⟩, answer, isFrames⟩ :=
        quits.next next frames rfl
      rw [isError] at isFrames
      exact ⟨sent, stopped, gone, ⟨answer, below, by rw [← isFrames]; rfl⟩,
        ending next frames rfl⟩
  | raise next =>
      exact (noRaise next rfl).elim
  | fault reason =>
      cases noFault

/-- A streamer fails, and the request of its item ends. -/
theorem fails_ends
    {before after : Config}
    {r item : Nat}
    {error : ErrorCode}
    (permitted : KeepsForms before (.input (.streamFinish r item (some error))))
    (books : Books before.state)
    (sound : ∀ d, Live (before.state.clients d))
    (stepped :
      machine.step? before (.input (.streamFinish r item (some error))) =
        some after)
    (noFault : after.fault = none) :
    EndsUpload before after r error := by
  cases CallMachine.Machine.steps_of_step? stepped with
  | @input called outcome _ isAccepted =>
      have accepted :
          accept (.streamFinish r item (some error)) before.stack.head?
            before.state = some outcome := isAccepted
      generalize before.stack.head? = top at accepted
      cases top <;> simp only [accept, reduceCtorEq] at accepted
      split at accepted <;> cases accepted
      rename_i c runs streamer
      obtain ⟨active, field⟩ := books.runner runs streamer
      obtain ⟨⟨_, _, _, isFile⟩, _⟩ := books.file active field
      have same := finishRequest_finishing active field isFile rfl (some error)
      refine endsUpload_of_quits
        (formFileComplete_fails books sound runs streamer error) rfl ?_ ?_ noFault
      · intro next raised
        obtain ⟨s, loses⟩ := finishRequest_raise (same.symm.trans raised)
        exact loses.refuses (permitted.2 _ rfl c streamer)
      · intro next frames executed
        obtain ⟨s, _, finishes, _⟩ :=
          finishRequest_next (same.symm.trans executed)
        have isRequest := finishes.1
        rw [active] at isRequest
        cases isRequest
        exact finishes.ends

/-- A call to cancel an upload calls `cancel` of its client. -/
theorem CancelsUpload.outcome
    {w : World}
    {c r : Nat}
    {error : Option ErrorCode}
    {input : Input}
    {top : Option Frame}
    {outcome : Step}
    (cancels : CancelsUpload r c error input)
    (linked : (w.requests r).client = some c)
    (accepted : accept input top w = some outcome) :
    outcome = w.cancel c error := by
  cases cancels with
  | request =>
      simp only [accept, Option.some.injEq] at accepted
      rw [← accepted]
      simp [requestCancel, linked]
  | client =>
      simp only [accept, Option.some.injEq] at accepted
      exact accepted.symm

theorem CancelsUpload.starts
    {w : World}
    {c r : Nat}
    {error : Option ErrorCode}
    {input : Input}
    (cancels : CancelsUpload r c error input)
    (linked : (w.requests r).client = some c)
    (inForm : w.InForm c)
    (leaves : w.LeavesForms input) :
    w.NextStarts c := by
  cases cancels with
  | request =>
      exact leaves c linked inForm
  | client =>
      exact leaves inForm

/-- An upload is cancelled, and its request ends. -/
theorem cancels_ends
    {before after : Config}
    {c r : Nat}
    {error : Option ErrorCode}
    {input : Input}
    (permitted : KeepsForms before (.input input))
    (books : Books before.state)
    (sound : ∀ d, Live (before.state.clients d))
    (uploading : Uploading before.state c r)
    (cancels : CancelsUpload r c error input)
    (stepped : machine.step? before (.input input) = some after)
    (noFault : after.fault = none) :
    EndsUpload before after r (error.getD (.http .transferAborted)) := by
  obtain ⟨incomplete, inForm⟩ := books.uploading uploading
  have active := uploading.1
  have linked := books.linked c r active
  cases CallMachine.Machine.steps_of_step? stepped with
  | @input called outcome _ accepted =>
      have starts := cancels.starts linked inForm (permitted.2 input rfl)
      have isCancel := cancels.outcome linked accepted
      subst isCancel
      refine endsUpload_of_quits
        (cancel_quits (Halts.refl (sound c)) books sound active error) ?_ ?_ ?_
        noFault
      · unfold finishError
        rw [incomplete]
        cases error <;> rfl
      · intro next raised
        obtain ⟨s, loses⟩ := cancel_raise raised
        exact loses.refuses (starts.setClient rfl rfl)
      · intro next frames executed
        rcases cancel_next executed with ⟨idle, _, _⟩ | ⟨s, _, finishes, _⟩
        · rw [active] at idle
          cases idle
        · have isRequest : (before.state.clients c).request = some s := by
            simpa [World.cancelling, World.setClient] using finishes.1
          rw [active] at isRequest
          cases isRequest
          exact finishes.ends

/-- A streamer delivers data, which are written. -/
theorem delivers_of_known
    {before after : Config}
    {r item : Nat}
    {data : Data}
    (books : Books before.state)
    (sound : ∀ d, Live (before.state.clients d))
    (stepped :
      machine.step? before (.input (.streamData r item data)) = some after) :
    ∃ fields pieces,
      sentOf r before.state.trace = some (fields, pieces) ∧
        (formPlan r).Streams fields.form item pieces ∧
        sentOf r after.state.trace =
          some (fields, pieces ++ [.formData r data]) := by
  cases CallMachine.Machine.steps_of_step? stepped with
  | @input called outcome _ isAccepted =>
      have accepted :
          accept (.streamData r item data) before.stack.head? before.state =
            some outcome := isAccepted
      generalize before.stack.head? = top at accepted
      cases top <;> simp only [accept, reduceCtorEq] at accepted
      split at accepted <;> cases accepted
      rename_i c runs streamer
      obtain ⟨fields, pieces, atItem⟩ := books.atItem runs streamer
      exact ⟨fields, pieces, atItem.isSent, atItem.sent.reaches,
        (atItem.delivers books sound data).sent⟩

/-- A streamer has finished, and the next items are written. -/
theorem resumes_of_known
    {before after : Config}
    {r item : Nat}
    (books : Books before.state)
    (sound : ∀ d, Live (before.state.clients d))
    (stepped :
      machine.step? before (.input (.streamFinish r item none)) = some after)
    (noFault : after.fault = none) :
    ∃ fields pieces,
      sentOf r before.state.trace = some (fields, pieces) ∧
        (formPlan r).Streams fields.form item pieces ∧
        sentOf r after.state.trace =
          some
            (fields,
              pieces ++ (formPlan r).passage (fields.form.drop (item + 1))) := by
  cases CallMachine.Machine.steps_of_step? stepped with
  | @input called outcome _ isAccepted =>
      have accepted :
          accept (.streamFinish r item none) before.stack.head? before.state =
            some outcome := isAccepted
      generalize before.stack.head? = top at accepted
      cases top <;> simp only [accept, reduceCtorEq] at accepted
      split at accepted <;> cases accepted
      rename_i c runs streamer
      obtain ⟨fields, pieces, atItem, goesOn⟩ :=
        streamFinish_resumes books sound runs streamer
      rcases goesOn with ⟨next, isNext, adds⟩ | ⟨reason, isFault⟩
      · refine ⟨fields, pieces, atItem.isSent, atItem.sent.reaches, ?_⟩
        change sentOf r
          (machine.resume before before.stack
            ((before.state.finishing r item).formFileComplete c
              none)).state.trace = _
        rw [isNext]
        exact adds.sent
      · change (machine.resume before before.stack
            ((before.state.finishing r item).formFileComplete c none)).fault = none
          at noFault
        rw [isFault] at noFault
        cases noFault

theorem uploadStep_of_known
    {before after : Config}
    {label : Label}
    (permitted : KeepsForms before label)
    (introduced : Introduced before.state)
    (known : Known before.state before.stack)
    (stepped : machine.step? before label = some after)
    (noFault : after.fault = none) :
    UploadStep before label after := by
  obtain ⟨uploads, ⟨booksAfter, _⟩, reports⟩ :=
    turned_of_step permitted introduced known stepped noFault
  obtain ⟨books, redirects | attends⟩ := known
  · obtain ⟨frame, member, isRedirect⟩ := redirects
    rw [permitted.1 frame member] at isRedirect
    cases isRedirect
  refine
    { order := ?_, completes := ?_, delivers := ?_, resumes := ?_, quiet := ?_
      fails := ?_, cancels := ?_, stops := ?_, reports := reports }
  · intro r fields pieces isSent streams
    obtain ⟨position, sent⟩ := booksAfter.sent r fields pieces isSent streams
    exact sent.isPrefix
  · intro c r active
    obtain ⟨fields, pieces, isSent, _, progress⟩ := booksAfter.holds c r active
    refine ⟨fields, pieces, isSent, fun streams => ?_⟩
    cases progress with
    | ended _ complete =>
        obtain ⟨completed, sent⟩ := complete streams
        exact iff_of_true completed
          ((sent.full_iff (separate_formPlan r)).mpr rfl)
    | item index _ _ incomplete sent _ =>
        refine iff_of_false (by simp [incomplete]) fun full => ?_
        cases (sent.full_iff (separate_formPlan r)).mp full
  · rintro r item data rfl
    exact delivers_of_known books attends.live stepped
  · rintro r item rfl
    exact resumes_of_known books attends.live stepped noFault
  · intro r fields pieces isSent streams noData noFinish
    refine uploads.sent r fields pieces ?_ isSent streams
    rintro (⟨item, data, isLabel⟩ | ⟨item, isLabel⟩)
    · exact noData item data isLabel
    · exact noFinish item isLabel
  · rintro r item error rfl
    exact fails_ends permitted books attends.live stepped noFault
  · rintro r c error input uploading cancels rfl
    exact cancels_ends permitted books attends.live uploading cancels stepped
      noFault
  · intro c r uploading gone
    have linked := books.linked c r uploading.1
    have noGrowth : ¬ Grows label r := fun grows =>
      gone (uploads.stays c r grows uploading.1)
    obtain ⟨active, fields, pieces, isSent, streams, _⟩ := uploading
    constructor
    · rw [isSent]
      refine (uploads.sent r fields pieces noGrowth isSent streams).resolve_right ?_
      rintro ⟨unlinked, _⟩
      rw [linked] at unlinked
      cases unlinked
    · intro item
      refine Bool.eq_false_iff.mpr fun runs => ?_
      obtain ⟨d, activeAfter, _⟩ := booksAfter.running r item runs
      rcases uploads.begun d r activeAfter with before | unlinked
      · have also := books.linked d r before
        rw [linked] at also
        cases also
        exact gone activeAfter
      · rw [linked] at unlinked
        cases unlinked

theorem known_start {w : World} (fresh : Fresh w) : Known w [] := by
  have idle : ∀ c, (w.clients c).request = none := by
    simp [fresh.clients]
  have nothing : ∀ r, sentOf r w.trace = none := by
    simp [fresh.trace, sentOf]
  refine ⟨⟨?_, ?_, ?_, ?_, ?_, ?_⟩, Or.inr ⟨fun c => ⟨?_, ?_, ?_⟩, ?_⟩⟩
  · intro c r active
    simp [idle] at active
  · simp [fresh.clients]
  · intro c r active
    simp [idle] at active
  · simp [fresh.requests]
  · simp [fresh.requests]
  · intro r fields pieces isSent
    simp [nothing] at isSent
  · simp [fresh.clients]
  · simp [idle]
  · simp [idle]
  · rintro d ⟨buffer, buf, member⟩
    cases member

end Run

/-- A form with a streamed file between two fields, before the file has ended. -/
def fileInForm : List Label :=
  [.input (.newClient 0),
    .input (.edit 0
      { uri := some { scheme := "http", host := "here" }
        form :=
          [.field "first" "one",
            .file "photo" "image/png" "photo.png",
            .field "last" "two"]
        formStreaming := true }),
    .input (.clientRequest 0 0),
    .input (.onConnect 0 none),
    .input (.streamData 0 1 ['a', 'b']),
    .input (.streamData 0 1 ['c'])]

/--
While a file is streamed, another request waits for the client, and it loses the host
of its uri.
-/
def waitingWithoutHost : List Label :=
  [.input (.maxConnections 0 1),
    .input (.edit 0
      { uri := some { scheme := "http", host := "here" }
        form := [.file "photo" "image/png" "photo.png"]
        formStreaming := true }),
    .input (.edit 1 { uri := some { scheme := "http", host := "here" } }),
    .input (.poolRequest 0 0),
    .input (.poolRequest 0 1),
    .input (.edit 1 { uri := some { scheme := "http" } })]

theorem waitingWithoutHost_reached :
    (run? (initial {}) waitingWithoutHost).any (fun config =>
      (config.state.clients 0).request = some 0 ∧
        ((sentOf 0 config.state.trace).any fun sent =>
          sent.1.formStreaming = true ∧ .formFinish 0 ∉ sent.2) ∧
        (machine.step? config (.input (.cancel 0 (some .operationCanceled)))).any
          fun next => next.fault = none ∧ next.stack = []) = true := by
  decide +kernel

end UniEventHttp.ClientSide.World
