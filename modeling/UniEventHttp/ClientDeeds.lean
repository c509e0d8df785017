import UniEventHttp.ClientActs
import UniEventHttp.ClientKeys

namespace UniEventHttp.ClientSide.World

/-!
# What a step of the clients does

Every step of the machine, whether the code goes on or an exception leaves it, is
one of a few deeds.  A property of all runs is proved by looking at each of them
once.
-/

/-- What has caused a step: a frame, or a call or an event from outside. -/
inductive Cause where
  | frame (frame : Frame)
  | input (input : Input)

/-- A request is given to a pool, by the application or by a user agent. -/
inductive Offers (w : World) : Input → Nat → Nat → World → Prop where
  | pool (p r : Nat) : Offers w (.poolRequest p r) p r w
  | agent {a r : Nat} {contextUri : Uri} {topLevel : Bool} {next : World} :
      Tunes w next →
      w.agentRequest a r contextUri topLevel =
        next.poolRequest (w.agents a).pool r →
      Offers w (.agentRequest a r contextUri topLevel) (w.agents a).pool r next

theorem Offers.tunes
    {w next : World}
    {input : Input}
    {p r : Nat}
    (offers : Offers w input p r next) :
    Tunes w next := by
  cases offers with
  | pool =>
      exact Tunes.refl w
  | agent tunes _ =>
      exact tunes

/-- What a step does to the world. -/
inductive Deed (w : World) : Cause → World → Prop where
  | act {cause : Cause} {next : World} : Act w next → Deed w cause next
  | mishap {cause : Cause} {next : World} : Mishap w next → Deed w cause next
  /-- A part of a buffer is parsed, and then acted upon. -/
  | parses {c buffer context : Nat} {rest : List Parsed} {result : Parsed}
      {next : World} :
      (w.clients c).parsing = some context →
      Act (w.parseShift c buffer context result) next ∨
        Mishap (w.parseShift c buffer context result) next →
      Deed w (.frame (.onRead c buffer (result :: rest))) next
  /-- A cancelled request leaves the queue. -/
  | erases {p : Nat} {key : NetLoc} {ticket generation : Nat}
      {entry : NetLocList} {next : World} :
      (w.pools p).clients key = some entry →
      entry.generation = generation →
      entry.queue.findIdx (fun place => place.ticket == ticket) <
        entry.queue.length →
      w.cancelReturn p key ticket generation = .next next [] →
      Deed w (.frame (.cancelReturn p key ticket generation)) next
  | edits {r : Nat} {fields : RequestFields} :
      mayEdit (w.requests r) fields = true →
      Deed w (.input (.edit r fields))
        (w.setRequest r (edited (w.requests r) fields))
  | creates (loop : Nat) :
      Deed w (.input (.newClient loop)) (w.newClient loop none)
  | begins {c r : Nat} {next : World} :
      c < w.nextClient →
      Started w c r next →
      Deed w (.input (.clientRequest c r))
        (next.emit
          (.accepted r none (w.clients c).loop (next.now (w.clients c).loop)
            (next.requests r).timeout))
  | refuses {c r : Nat} {next : World} :
      c < w.nextClient →
      Refused w c r next →
      Deed w (.input (.clientRequest c r)) next
  | submits {input : Input} {p r : Nat} {offered next : World} :
      Offers w input p r offered →
      (offered.requests r).check = none →
      Pooled
        (offered.setRequest r { offered.requests r with pool := some p }) p r
        next →
      Deed w (.input input)
        (next.emit
          (.accepted r (some p) (w.pools p).loop (next.now (w.pools p).loop)
            (next.requests r).timeout))
  | rejects {input : Input} {p r : Nat} {offered next : World} :
      Offers w input p r offered →
      PoolRefuses offered p r next →
      Deed w (.input input) next
  | limits (p value : Nat) :
      Deed w (.input (.maxConnections p value))
        { w with
          pools := Function.update w.pools p
            { w.pools p with maxConnections := value } }
  | advances (loop milliseconds : Nat) :
      Deed w (.input (.advance loop milliseconds))
        { w with
          now := Function.update w.now loop (w.now loop + milliseconds) }
  | delivers {c connection : Nat} {buf : List Parsed} :
      (w.clients c).tcp.connection = some connection →
      Deed w (.input (.onRead c buf))
        ({ w with nextBuffer := w.nextBuffer + 1 }.emit
          (.delivered c connection w.nextBuffer))
  /-- A timer fires, and its listener acts if there is one. -/
  | rings {r : Nat} {timer : Timer} {next : World} :
      (w.requests r).timer = some timer →
      Act
          (w.setRequest r
            { w.requests r with timer := some { timer with deadline := none } })
          next ∨
        Mishap
          (w.setRequest r
            { w.requests r with timer := some { timer with deadline := none } })
          next →
      Deed w (.input (.onTimer r)) next
  | sweeps (p : Nat) :
      Deed w (.input (.checkInactivity p)) (w.checkInactivity p)

theorem Runs.deed
    {w : World}
    {step : Step}
    (runs : Runs step (Act w) (Mishap w))
    (cause : Cause) :
    step.Holds (Deed w cause) (fun _ => True) :=
  (runs.imp (fun _ => .act) fun _ => .mishap).holds

/-- Every frame does one deed. -/
theorem code_deed (w : World) (frame : Frame) :
    (code frame w).Holds (Deed w (.frame frame)) (fun _ => True) := by
  cases plain : isPlainFrame frame with
  | true =>
      exact (code_act w frame plain).deed _
  | false =>
      cases frame with
      | onRead c buffer buf =>
          cases buf with
          | nil =>
              exact Deed.act (.tunes (Tunes.refl w))
          | cons result rest =>
              refine ((onReadLoop_act w c buffer result rest).imp ?_ ?_).holds
              · rintro next (⟨_, tunes⟩ | ⟨context, hasContext, act⟩)
                · exact .act (.tunes tunes)
                · exact .parses hasContext (Or.inl act)
              · rintro next ⟨context, hasContext, mishap⟩
                exact .parses hasContext (Or.inr mishap)
      | cancelReturn p key ticket generation =>
          change (w.cancelReturn p key ticket generation).Holds _ _
          cases executed : w.cancelReturn p key ticket generation with
          | fault reason =>
              trivial
          | raise next =>
              unfold cancelReturn at executed
              dsimp only at executed
              split at executed
              · cases executed
              · split at executed <;> cases executed
          | next next frames =>
              have returned := executed
              unfold cancelReturn at executed
              dsimp only at executed
              split at executed
              · cases executed
              · rename_i entry present
                split at executed
                · rename_i valid
                  cases executed
                  exact Deed.erases present valid.1 valid.2 returned
                · cases executed
      | _ =>
          cases plain

theorem clientRequest_deed
    {w : World}
    {c : Nat}
    (known : c < w.nextClient)
    (r : Nat) :
    ((w.clientRequest c r).before
        (acceptedOn none (w.clients c).loop r)).Holds
      (Deed w (.input (.clientRequest c r))) (fun _ => True) := by
  refine Straight.Post.before
    ((clientRequest_post w c r).imp (fun _ => id)
      (fun _ refused => .refuses known refused) (fun _ _ => trivial)) ?_
  exact fun next started => Deed.begins known started

theorem Offers.deed
    {w offered : World}
    {input : Input}
    {p r : Nat}
    (offers : Offers w input p r offered) :
    ((offered.poolRequest p r).before
        (acceptedOn (some p) (w.pools p).loop r)).Holds
      (Deed w (.input input)) (fun _ => True) := by
  refine Straight.Post.before
    ((poolRequest_post offered p r).imp (fun _ => id)
      (fun _ refused => .rejects offers (.of_post refused))
      (fun _ _ => trivial)) ?_
  exact fun next pooled => Deed.submits offers pooled.1 pooled.2

/-- Every call and every event does one deed. -/
theorem accept_deed
    {w : World}
    {input : Input}
    {top : Option Frame}
    {outcome : Step}
    (accepted : accept input top w = some outcome) :
    outcome.Holds (Deed w (.input input)) (fun _ => True) := by
  cases plain : isPlainInput input with
  | true =>
      exact (accept_act plain accepted).deed _
  | false =>
      cases input with
      | edit r fields =>
          simp only [accept] at accepted
          split at accepted
          · rename_i allowed
            cases accepted
            exact Deed.edits allowed
          · cases accepted
      | newClient loop =>
          cases accepted
          exact Deed.creates loop
      | clientRequest c r =>
          simp only [accept] at accepted
          split at accepted
          · rename_i known
            cases accepted
            exact clientRequest_deed known r
          · cases accepted
      | poolRequest p r =>
          cases accepted
          exact (Offers.pool p r).deed
      | agentRequest a r contextUri topLevel =>
          simp only [accept, Option.some.injEq] at accepted
          subst accepted
          rcases agentRequest_tunes w a r contextUri topLevel with
            fault | ⟨middle, tunes, isPool⟩
          · rw [fault]
            trivial
          · have offers := Offers.agent tunes isPool
            rw [isPool]
            exact offers.deed
      | maxConnections p value =>
          cases accepted
          exact Deed.limits p value
      | advance loop milliseconds =>
          cases top <;> simp only [accept, reduceCtorEq] at accepted
          cases accepted
          exact Deed.advances loop milliseconds
      | onRead c buf =>
          cases top <;> simp only [accept, reduceCtorEq] at accepted
          split at accepted
          · rename_i connection _ _ isConnection
            cases accepted
            exact Deed.delivers isConnection
          · cases accepted
      | onTimer r =>
          cases top <;> simp only [accept, reduceCtorEq] at accepted
          split at accepted
          · cases accepted
          · rename_i timer isTimer
            split at accepted
            · cases accepted
            · split at accepted
              · cases accepted
                unfold fireTimer
                dsimp only
                split
                · refine ((onTimer_act _ r).imp ?_ ?_).holds
                  · exact fun _ act => .rings isTimer (Or.inl act)
                  · exact fun _ mishap => .rings isTimer (Or.inr mishap)
                · exact Deed.rings isTimer (Or.inl (.tunes (Tunes.refl _)))
              · cases accepted
      | checkInactivity p =>
          cases top <;> simp only [accept, reduceCtorEq] at accepted
          split at accepted <;> cases accepted
          exact Deed.sweeps p
      | _ =>
          cases plain

/-! ## Runs -/

/-- The choice that is made causes the code to run for this cause. -/
inductive Causes : Config → Label → Cause → Prop where
  | tick {config : Config} {frame : Frame} {rest : List Frame} :
      config.stack = frame :: rest → Causes config .tick (.frame frame)
  | input {config : Config} (input : Input) :
      Causes config (.input input) (.input input)

theorem holds_deed
    {config : Config}
    {below : List Frame}
    {outcome : Step}
    {cause : Cause}
    (holds : outcome.Holds (Deed config.state cause) (fun _ => True)) :
    (machine.resume config below outcome).state = config.state ∨
      Deed config.state cause (machine.resume config below outcome).state := by
  cases outcome with
  | next w frames | raise w =>
      exact Or.inr holds
  | fault reason =>
      exact Or.inl rfl

/-- Every step of a run does one deed, or it only takes frames off the stack. -/
theorem step_deed
    {config next : Config}
    {label : Label}
    (stepped : machine.step? config label = some next) :
    next.state = config.state ∨
      ∃ cause,
        Causes config label cause ∧ Deed config.state cause next.state := by
  obtain ⟨w, stack, fault⟩ := config
  cases fault with
  | some reason =>
      simp [CallMachine.Machine.step?] at stepped
  | none =>
      cases label with
      | tick =>
          cases stack with
          | nil =>
              simp [CallMachine.Machine.step?] at stepped
          | cons frame rest =>
              simp only [CallMachine.Machine.step?,
                Option.ite_none_left_eq_some, Option.some.injEq] at stepped
              obtain ⟨_, rfl⟩ := stepped
              exact (holds_deed (code_deed w frame)).imp id
                fun deed => ⟨_, .tick rfl, deed⟩
      | ret | throw =>
          cases stack with
          | nil =>
              simp [CallMachine.Machine.step?] at stepped
          | cons frame rest =>
              simp only [CallMachine.Machine.step?,
                Option.ite_none_right_eq_some, Option.some.injEq] at stepped
              obtain ⟨_, rfl⟩ := stepped
              exact Or.inl rfl
      | input input =>
          simp only [CallMachine.Machine.step?, Option.ite_none_right_eq_some,
            Option.map_eq_some_iff] at stepped
          obtain ⟨_, outcome, accepted, rfl⟩ := stepped
          have holds : outcome.Holds (Deed w (.input input)) (fun _ => True) :=
            accept_deed accepted
          exact (holds_deed holds).imp id fun deed => ⟨_, .input input, deed⟩

/-- Every cause that a choice may have is permitted. -/
def Permits
    (permitted : World → Cause → Prop)
    (config : Config)
    (label : Label) : Prop :=
  ∀ cause, Causes config label cause → permitted config.state cause

/-- What every permitted deed keeps holds at the end of every such run. -/
theorem run_of_deeds
    {permitted : World → Cause → Prop}
    {invariant : World → Prop}
    (keeps :
      ∀ w cause next,
        permitted w cause →
        invariant w →
        Deed w cause next →
        invariant next)
    {config final : Config}
    {labels : List Label}
    (begins : invariant config.state)
    (guarded : machine.Guarded (Permits permitted) config labels)
    (ran : machine.run? config labels = some final) :
    invariant final.state := by
  have kept :
      ∀ config label next,
        (fun config : Config => invariant config.state) config →
        Permits permitted config label →
        machine.step? config label = some next →
        (fun config : Config => invariant config.state) next := by
    intro before label after holds permits stepped
    rcases step_deed stepped with same | ⟨cause, causes, deed⟩
    · simp only [same]
      exact holds
    · exact keeps _ cause _ (permits cause causes) holds deed
  exact CallMachine.Machine.run?_invariant kept begins guarded ran

end UniEventHttp.ClientSide.World
