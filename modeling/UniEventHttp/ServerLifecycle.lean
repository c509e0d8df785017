import UniEventHttp.History
import UniEventHttp.Server

namespace UniEventHttp.Server

/-!
# The lifecycle of a server

`stop_event` should come once for each run, when nothing is left of the server.
Two pieces of code fire it, the end of `stop` and the removal of the last
connection of a stopping server, and the loop of `stop` itself removes
connections.  Each run is paired with one `stop_event` where `stop` is not
called while a graceful stop waits for its connections, nor from within the loop
of another `stop`.
-/

open History

/-! ## What is observed -/

def isRan : Event → Bool
  | .ran => true
  | _ => false

def isStopped : Event → Bool
  | .stopped _ _ _ => true
  | _ => false

/-- The successful runs of a history. -/
def runs (history : List Event) : Nat :=
  history.countP isRan

/-- The times that `stop_event` has been fired. -/
def stops (history : List Event) : Nat :=
  history.countP isStopped

/-- `stop_event` ends a successful run, when nothing is left of the server. -/
def Paired (earlier : List Event) : Event → Prop
  | .stopped state listeners connections =>
      state = .initial ∧ listeners = [] ∧ connections = [] ∧
        runs earlier = stops earlier + 1
  | _ => True

/-- The server runs and listens on every location. -/
def Listening (s : Server) : Prop :=
  s.state = .running ∧ s.listeners = List.range s.locations

instance (s : Server) : Decidable s.Listening :=
  inferInstanceAs (Decidable (_ ∧ _))

/--
A run made from a `stop_event` callback is not undone by the code that is left
of the call which fired the event.
-/
def KeepsRunning (config : Config) : Prop :=
  ∀ below,
    config.stack = .callback .stopEvent :: below →
    Listening config.state →
    ∀ count after,
      machine.run? config (.ret :: List.replicate count .tick) = some after →
      Listening after.state

/-- `stop_event` comes once for each run, and a run made from it lasts. -/
def OncePerRun (config : Config) : Prop :=
  Each Paired config.state.trace ∧ KeepsRunning config

/-! ## The condition -/

/--
`start_listening` does not fail, and a server is not stopped again while it is
being stopped.
-/
def StopsOnce (config : Config) : Label → Prop
  | .input (.run bound _) =>
      config.state.state = .initial → config.state.locations ≤ bound
  | .input .stop =>
      (config.state.state = .stopping → config.state.connections = []) ∧
        Frame.closeAll ∉ config.stack
  | .input .gracefulStop => Frame.closeAll ∉ config.stack
  | _ => True

instance (config : Config) (label : Label) :
    Decidable (StopsOnce config label) := by
  unfold StopsOnce
  split <;> infer_instance

/-! ## The invariant -/

/-- No loop of `stop` below another one or below a `stop_event` callback. -/
def LoopsApart : List Frame → Prop
  | [] => True
  | frame :: below =>
      (frame = .closeAll ∨ frame = .callback .stopEvent →
          Frame.closeAll ∉ below) ∧
        LoopsApart below

/-- The invariant of a server whose runs are stopped once. -/
structure Lifecycle (s : Server) (stack : List Frame) : Prop where
  paired : Each Paired s.trace
  counted :
    runs s.trace = stops s.trace + if s.state = .initial then 0 else 1
  unlistening : s.state ≠ .running → s.listeners = []
  draining : s.state = .stopping → s.connections ≠ []
  closing :
    Frame.closeAll ∈ stack → s.state = .running ∧ s.listeners = []
  loopsApart : LoopsApart stack

/-- Observations that do not count. -/
def isSilent : Event → Bool
  | .ran => false
  | .stopped _ _ _ => false
  | _ => true

theorem runs_silent
    {history events : List Event}
    (silent : ∀ event ∈ events, isSilent event = true) :
    runs (history ++ events) = runs history := by
  have none : events.countP isRan = 0 := by
    rw [List.countP_eq_zero]
    intro event member isRun
    have := silent event member
    cases event <;> simp_all [isRan, isSilent]
  simp [runs, none]

theorem stops_silent
    {history events : List Event}
    (silent : ∀ event ∈ events, isSilent event = true) :
    stops (history ++ events) = stops history := by
  have none : events.countP isStopped = 0 := by
    rw [List.countP_eq_zero]
    intro event member isStop
    have := silent event member
    cases event <;> simp_all [isStopped, isSilent]
  simp [stops, none]

theorem paired_silent
    {history events : List Event}
    (paired : Each Paired history)
    (silent : ∀ event ∈ events, isSilent event = true) :
    Each Paired (history ++ events) := by
  refine each_append.mpr ⟨paired, ?_⟩
  intro earlier event later inside
  have := silent event (by simp [inside])
  cases event <;> simp_all [Paired, isSilent]

/-- The lifecycle on another stack. -/
theorem Lifecycle.restack
    {s : Server}
    {stack other : List Frame}
    (lifecycle : Lifecycle s stack)
    (closing :
      Frame.closeAll ∈ other → s.state = .running ∧ s.listeners = [])
    (loopsApart : LoopsApart other) :
    Lifecycle s other :=
  { lifecycle with closing := closing, loopsApart := loopsApart }

theorem Lifecycle.pop
    {s : Server}
    {frame : Frame}
    {below : List Frame}
    (lifecycle : Lifecycle s (frame :: below)) :
    Lifecycle s below :=
  lifecycle.restack
    (fun member => lifecycle.closing (List.mem_cons_of_mem _ member))
    lifecycle.loopsApart.2

/-- A frame that is not a loop, and no `stop_event` callback above a loop. -/
theorem Lifecycle.push
    {s : Server}
    {frame : Frame}
    {below : List Frame}
    (lifecycle : Lifecycle s below)
    (notLoop : frame ≠ .closeAll)
    (notAbove :
      frame = .callback .stopEvent → Frame.closeAll ∉ below) :
    Lifecycle s (frame :: below) := by
  refine lifecycle.restack ?_ ⟨?_, lifecycle.loopsApart⟩
  · intro member
    exact lifecycle.closing
      ((List.mem_cons.mp member).resolve_left notLoop.symm)
  · rintro (isLoop | isStop)
    · exact (notLoop isLoop).elim
    · exact notAbove isStop

/-- Observations that do not count, with new connections. -/
theorem Lifecycle.observe
    {s : Server}
    {stack : List Frame}
    (lifecycle : Lifecycle s stack)
    (lastid : Nat)
    (connections : List Nat)
    (events : List Event)
    (draining : s.state = .stopping → connections ≠ [])
    (silent : ∀ event ∈ events, isSilent event = true) :
    Lifecycle
      { s with
        lastid := lastid
        connections := connections
        trace := s.trace ++ events } stack where
  paired := paired_silent lifecycle.paired silent
  counted := by
    rw [runs_silent silent, stops_silent silent]
    exact lifecycle.counted
  unlistening := lifecycle.unlistening
  draining := draining
  closing := lifecycle.closing
  loopsApart := lifecycle.loopsApart

/-- `stop_event` is fired for a server that has run. -/
theorem Lifecycle.finishStop
    {s next : Server}
    {below frames : List Frame}
    (paired : Each Paired s.trace)
    (counted : runs s.trace = stops s.trace + 1)
    (unlistening : s.listeners = [])
    (drained : s.connections = [])
    (noLoop : Frame.closeAll ∉ below)
    (loopsApart : LoopsApart below)
    (executed : s.finishStop = .next next frames) :
    Lifecycle next (frames ++ below) := by
  cases executed
  refine
    { paired := each_snoc.mpr
        ⟨paired, rfl, unlistening, drained, counted⟩
      counted := ?_, unlistening := fun _ => unlistening
      draining := by simp [emit], closing := ?_
      loopsApart := ⟨fun _ => noLoop, loopsApart⟩ }
  · simp only [emit, runs, stops] at counted ⊢
    simp [List.countP_append, counted, isRan, isStopped]
  · intro member
    simp only [List.cons_append, List.nil_append, List.mem_cons] at member
    exact (noLoop (member.resolve_left (by simp))).elim

/-! ## Every step -/

theorem Lifecycle.stopIfDone
    {s next : Server}
    {below frames : List Frame}
    (paired : Each Paired s.trace)
    (counted : runs s.trace = stops s.trace + 1)
    (unlistening : s.listeners = [])
    (noLoop : Frame.closeAll ∉ below)
    (loopsApart : LoopsApart below)
    (executed : s.stopIfDone = .next next frames) :
    Lifecycle next (frames ++ below) := by
  unfold Server.stopIfDone at executed
  split at executed
  · cases executed
  · rename_i isStopping
    split at executed
    · rename_i connected
      cases executed
      have stopping : s.state = .stopping := by simpa using isStopping
      exact
        { paired := paired
          counted := by simp [counted, stopping]
          unlistening := fun _ => unlistening
          draining := fun _ => connected
          closing := fun member => (noLoop member).elim
          loopsApart := loopsApart }
    · rename_i drained
      exact Lifecycle.finishStop paired counted unlistening
        (by simpa using drained) noLoop loopsApart executed

theorem Lifecycle.remove
    {s next : Server}
    {conn : Nat}
    {below frames : List Frame}
    (lifecycle : Lifecycle s below)
    (executed : s.remove conn = .next next frames) :
    Lifecycle next (frames ++ below) := by
  have silent :
      ∀ event ∈ [Event.removed conn], isSilent event = true := by
    simp [isSilent]
  by_cases stopping : s.state = .stopping
  · simp only [Server.remove, emit, stopping, ↓reduceIte] at executed
    have noLoop : Frame.closeAll ∉ below := by
      intro member
      simpa [stopping] using (lifecycle.closing member).1
    have counted :
        runs (s.trace ++ [.removed conn]) =
          stops (s.trace ++ [.removed conn]) + 1 := by
      rw [runs_silent silent, stops_silent silent]
      simpa [stopping] using lifecycle.counted
    refine Lifecycle.stopIfDone ?_ counted ?_ noLoop lifecycle.loopsApart
      executed
    · exact paired_silent lifecycle.paired silent
    · exact lifecycle.unlistening (by simp [stopping])
  · simp only [Server.remove, emit, stopping, ↓reduceIte] at executed
    cases executed
    exact lifecycle.observe s.lastid _ _
      (fun isStopping => (stopping isStopping).elim) silent

theorem Lifecycle.closeAll
    {s next : Server}
    {below frames : List Frame}
    (lifecycle : Lifecycle s (.closeAll :: below))
    (executed : s.closeAll = .next next frames) :
    Lifecycle next (frames ++ below) := by
  obtain ⟨running, unlistening⟩ := lifecycle.closing (by simp)
  unfold Server.closeAll at executed
  split at executed
  · rename_i drained
    exact Lifecycle.finishStop lifecycle.paired
      (by simpa [running] using lifecycle.counted) unlistening drained
      (lifecycle.loopsApart.1 (Or.inl rfl)) lifecycle.loopsApart.2 executed
  · cases executed
    exact (lifecycle.push (by simp) (by simp)).push (by simp) (by simp)

theorem Lifecycle.stop
    {s next : Server}
    {stack frames : List Frame}
    (lifecycle : Lifecycle s stack)
    (notDraining : s.state = .stopping → s.connections = [])
    (noLoop : Frame.closeAll ∉ stack)
    (executed : s.stop = .next next frames) :
    Lifecycle next (frames ++ stack) := by
  unfold Server.stop at executed
  split at executed
  · cases executed
    exact lifecycle
  · rename_i started
    cases executed
    have running : s.state = .running := by
      cases state : s.state with
      | initial =>
          exact (started state).elim
      | running =>
          rfl
      | stopping =>
          exact (lifecycle.draining state (notDraining state)).elim
    exact
      { paired := lifecycle.paired
        counted := lifecycle.counted
        unlistening := fun _ => rfl
        draining := lifecycle.draining
        closing := fun _ => ⟨running, rfl⟩
        loopsApart := ⟨fun _ => noLoop, lifecycle.loopsApart⟩ }

theorem Lifecycle.gracefulStop
    {s next : Server}
    {stack frames : List Frame}
    (lifecycle : Lifecycle s stack)
    (noLoop : Frame.closeAll ∉ stack)
    (executed : s.gracefulStop = .next next frames) :
    Lifecycle next (frames ++ stack) := by
  simp only [Server.gracefulStop] at executed
  split at executed
  · cases executed
    exact lifecycle
  · rename_i isRunning
    have running : s.state = .running := by simpa using isRunning
    have silent :
        ∀ event ∈ s.connections.map Event.stopping,
          isSilent event = true := by
      simp [isSilent]
    have counted :
        runs (s.trace ++ s.connections.map Event.stopping) =
          stops (s.trace ++ s.connections.map Event.stopping) + 1 := by
      rw [runs_silent silent, stops_silent silent]
      simpa [running] using lifecycle.counted
    exact Lifecycle.stopIfDone (paired_silent lifecycle.paired silent) counted
      rfl noLoop lifecycle.loopsApart executed

theorem Lifecycle.run
    {s next : Server}
    {bound : Nat}
    {error : ErrorCode}
    {stack frames : List Frame}
    (lifecycle : Lifecycle s stack)
    (executed : s.run bound error = .next next frames) :
    Lifecycle next (frames ++ stack) := by
  unfold Server.run at executed
  split at executed
  · cases executed
  · rename_i isInitial
    have initial : s.state = .initial := by simpa using isInitial
    have noLoop : Frame.closeAll ∉ stack := by
      intro member
      simpa [initial] using (lifecycle.closing member).1
    have counted := lifecycle.counted
    simp only [initial, ↓reduceIte, Nat.add_zero] at counted
    split at executed
    · cases executed
    · rename_i listening started
      cases executed
      unfold startListening at started
      split at started
      · cases started
      · split at started
        · cases started
        · cases started
          refine
            { paired := each_snoc.mpr ⟨lifecycle.paired, trivial⟩
              counted := ?_, unlistening := by simp [emit]
              draining := by simp [emit], closing := ?_
              loopsApart := ⟨by simp, lifecycle.loopsApart⟩ }
          · simp only [emit, runs, stops] at counted ⊢
            simp [List.countP_append, counted, isRan, isStopped]
          · intro member
            simp only [List.cons_append, List.nil_append,
              List.mem_cons] at member
            exact (noLoop (member.resolve_left (by simp))).elim

theorem Lifecycle.runRaise
    {s next : Server}
    {bound : Nat}
    {error : ErrorCode}
    {stack : List Frame}
    (lifecycle : Lifecycle s stack)
    (listens : s.state = .initial → s.locations ≤ bound)
    (executed : s.run bound error = .raise next) :
    Lifecycle next stack := by
  unfold Server.run at executed
  split at executed
  · cases executed
    exact lifecycle.observe s.lastid s.connections _ lifecycle.draining
      (by simp [isSilent])
  · rename_i isInitial
    have initial : s.state = .initial := by simpa using isInitial
    have unlistening := lifecycle.unlistening (by simp [initial])
    have enough := listens initial
    have notBelow : ¬ bound < s.locations := by omega
    simp [startListening, unlistening, notBelow] at executed

theorem stopIfDone_ne_raise
    (s next : Server) :
    s.stopIfDone ≠ .raise next := by
  unfold stopIfDone
  split
  · simp
  · split <;> simp [finishStop]

theorem code_ne_raise
    (frame : Frame)
    (s next : Server) :
    code frame s ≠ .raise next := by
  cases frame with
  | callback _ =>
      simp [code]
  | closeAll =>
      simp only [code, closeAll]
      split <;> simp [finishStop]
  | remove conn =>
      simp only [code, remove]
      split
      · exact stopIfDone_ne_raise _ next
      · simp

/-- Every permitted step preserves the lifecycle. -/
theorem lifecycle_preserved :
    machine.Preserves StopsOnce Lifecycle where
  tick frame rest s next frames _ _ lifecycle executed := by
    cases frame with
    | callback fired =>
        cases executed
        exact lifecycle.pop
    | closeAll =>
        exact lifecycle.closeAll executed
    | remove conn =>
        exact lifecycle.pop.remove executed
  tickRaise frame rest s next _ _ _ executed :=
    (code_ne_raise frame s next executed).elim
  ret frame rest s _ lifecycle := lifecycle.pop
  throw _ _ _ _ throws := by
    simp [machine] at throws
  input called stack s next frames _ permitted lifecycle accepted := by
    cases called with
    | run bound error =>
        exact lifecycle.run (Option.some.inj accepted)
    | stop =>
        exact lifecycle.stop permitted.1 permitted.2 (Option.some.inj accepted)
    | gracefulStop =>
        exact lifecycle.gracefulStop permitted (Option.some.inj accepted)
    | close conn =>
        cases accepted
        exact (lifecycle.push (by simp) (by simp)).push (by simp) (by simp)
    | onEstablish error =>
        cases stack with
        | nil =>
            cases error with
            | some error =>
                cases accepted
                exact lifecycle
            | none =>
                cases accepted
                have connected :=
                  lifecycle.observe (s.lastid + 1)
                    (s.connections ++ [s.lastid + 1])
                    [.connected (s.lastid + 1)] (by simp) (by simp [isSilent])
                exact connected.push (by simp) (by simp)
        | cons frame rest =>
            simp [machine, accept] at accepted
    | onShutdown conn =>
        cases stack with
        | nil =>
            exact lifecycle.remove (Option.some.inj accepted)
        | cons frame rest =>
            simp [machine, accept] at accepted
  inputRaise called stack s next _ permitted lifecycle accepted := by
    cases called with
    | run bound error =>
        exact lifecycle.runRaise permitted (Option.some.inj accepted)
    | stop =>
        have executed : s.stop = .raise next := Option.some.inj accepted
        unfold Server.stop at executed
        split at executed <;> cases executed
    | gracefulStop =>
        have executed : s.gracefulStop = .raise next := Option.some.inj accepted
        simp only [Server.gracefulStop] at executed
        split at executed
        · cases executed
        · exact (stopIfDone_ne_raise _ _ executed).elim
    | close conn =>
        cases accepted
    | onEstablish error =>
        cases stack <;> simp only [machine, accept] at accepted
        · cases error <;> cases accepted
        · cases accepted
    | onShutdown conn =>
        cases stack <;> simp only [machine, accept] at accepted
        · exact (code_ne_raise (.remove conn) s next
            (Option.some.inj accepted)).elim
        · cases accepted

theorem lifecycle_initial (locations : Nat) :
    Lifecycle { locations := locations } [] where
  paired := each_nil Paired
  counted := rfl
  unlistening _ := rfl
  draining := by simp
  closing := by simp
  loopsApart := trivial

/-! ## After `stop_event` -/

/-- Outside of `stop` the code between callbacks leaves a running server alone. -/
theorem listening_tick
    {config next : Config}
    (listening : Listening config.state)
    (noLoop : Frame.closeAll ∉ config.stack)
    (stepped : machine.step? config .tick = some next) :
    Listening next.state ∧ Frame.closeAll ∉ next.stack := by
  obtain ⟨s, stack, fault⟩ := config
  obtain ⟨running, listeners⟩ := listening
  cases fault with
  | some reason =>
      simp [CallMachine.Machine.step?] at stepped
  | none =>
      cases stack with
      | nil =>
          simp [CallMachine.Machine.step?] at stepped
      | cons frame below =>
          cases frame with
          | callback fired =>
              simp [CallMachine.Machine.step?, machine, isCallback] at stepped
          | closeAll =>
              simp at noLoop
          | remove conn =>
              have isRunning : s.state = .running := running
              simp [CallMachine.Machine.step?, machine, isCallback, code,
                Server.remove, emit, isRunning,
                CallMachine.Machine.resume] at stepped
              subst next
              exact ⟨⟨rfl, listeners⟩,
                fun member => noLoop (List.mem_cons_of_mem _ member)⟩

theorem listening_ticks
    {count : Nat}
    {config after : Config}
    (listening : Listening config.state)
    (noLoop : Frame.closeAll ∉ config.stack)
    (ran :
      machine.run? config (List.replicate count .tick) = some after) :
    Listening after.state := by
  induction count generalizing config with
  | zero =>
      cases ran
      exact listening
  | succ count inductionHypothesis =>
      rw [List.replicate_succ] at ran
      unfold CallMachine.Machine.run? at ran
      split at ran
      · cases ran
      · rename_i next stepped
        obtain ⟨stays, stillNoLoop⟩ :=
          listening_tick listening noLoop stepped
        exact inductionHypothesis stays stillNoLoop ran

/-- No loop of `stop` waits below a `stop_event` callback. -/
theorem Lifecycle.keepsRunning
    {config : Config}
    (lifecycle : Lifecycle config.state config.stack) :
    KeepsRunning config := by
  intro below shape listening count after ran
  have loopsApart := lifecycle.loopsApart
  rw [shape] at loopsApart
  unfold CallMachine.Machine.run? at ran
  split at ran
  · cases ran
  · rename_i next stepped
    obtain ⟨s, stack, fault⟩ := config
    subst shape
    cases fault with
    | some reason =>
        simp [CallMachine.Machine.step?] at stepped
    | none =>
        simp only [CallMachine.Machine.step?, machine, isCallback, ↓reduceIte,
          Option.some.injEq] at stepped
        have noLoop : Frame.closeAll ∉ next.stack := by
          subst next
          exact loopsApart.1 (Or.inr rfl)
        have stays : Listening next.state := by
          subst next
          exact listening
        exact listening_ticks stays noLoop ran

/-- Where a server is stopped once at a time, each run is stopped once. -/
theorem oncePerRun_of_stopsOnce
    {locations : Nat}
    {labels : List Label}
    {final : Config}
    (ran : run? locations labels = some final)
    (stopsOnce : machine.Guarded StopsOnce (start locations) labels) :
    OncePerRun final := by
  have lifecycle :=
    lifecycle_preserved.run
      (lifecycle_initial locations :
        Lifecycle (start locations).state (start locations).stack)
      stopsOnce ran
  exact ⟨lifecycle.paired, lifecycle.keepsRunning⟩

/-- The last connection leaves a stopping server, which is run again at once. -/
def runAgain : List Label :=
  [.input (.run 1 (.foreign 0)), .ret, .input (.onEstablish none), .ret,
    .input .gracefulStop, .input (.onShutdown 1),
    .input (.run 1 (.foreign 0)), .ret]

theorem oncePerRun_runAgain :
    ∃ final,
      run? 1 runAgain = some final ∧
        OncePerRun final ∧
        final.stack = [.callback .stopEvent] ∧ Listening final.state := by
  have stopsOnce : machine.Guarded StopsOnce (start 1) runAgain := by
    decide
  have ran : run? 1 runAgain = some _ := rfl
  exact ⟨_, ran, oncePerRun_of_stopsOnce ran stopsOnce, rfl, by decide⟩

/-- `stop` is called while a graceful stop waits for a connection. -/
def stoppedWhileStopping : List Label :=
  [.input (.run 1 (.foreign 0)), .ret, .input (.onEstablish none), .ret,
    .input .gracefulStop, .input .stop, .tick, .ret, .tick, .ret, .tick]

/-- The removal of the connection and the end of `stop` both fire `stop_event`. -/
theorem stoppedWhileStopping_not_oncePerRun :
    ∃ final,
      run? 1 stoppedWhileStopping = some final ∧ ¬ OncePerRun final := by
  refine ⟨_, rfl, ?_⟩
  intro oncePerRun
  have paired :=
    oncePerRun.1 [_, _, _, _, _] (.stopped .initial [] []) [] rfl
  exact absurd paired.2.2.2 (by decide)

end UniEventHttp.Server
