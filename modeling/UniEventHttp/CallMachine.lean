import Mathlib.Data.List.Basic

namespace CallMachine

/-!
# Machines with a call stack and re-entrant callbacks

A program that calls back into application code cannot be described by one
function per entry point: while a callback runs, the application may call any
entry point again.  Here such a program is a machine whose state is paired with
a stack of frames.  A frame is either a callback, in which application code is
running, or a piece of the program's own straight-line code that is to be
executed when the frames above it have returned.

The program decides what the top frame does; the environment decides which
entry points are called while a callback runs or while the stack is empty.
Every finite order of these choices is a list of labels.
-/

/-- What one piece of straight-line code ends with. -/
inductive Outcome (State Frame Fault : Type) where
  /-- Continue in a new state, with these frames to be executed first. -/
  | next (state : State) (frames : List Frame)
  /-- An exception leaves the code. -/
  | raise (state : State)
  /-- A failed assertion or undefined behaviour: the run ends here. -/
  | fault (reason : Fault)

/-- What holds of the state after an outcome, or of the reason of its fault. -/
def Outcome.Holds
    {State Frame Fault : Type}
    (outcome : Outcome State Frame Fault)
    (invariant : State → Prop)
    (reasons : Fault → Prop) : Prop :=
  match outcome with
  | .next state _ => invariant state
  | .raise state => invariant state
  | .fault reason => reasons reason

/-- A program with a call stack, in terms of its frames and its entry points. -/
structure Machine (State Frame Input Fault : Type) where
  /-- The code of a frame that is not a callback. -/
  code : Frame → State → Outcome State Frame Fault
  /-- Application code is running in this frame. -/
  isCallback : Frame → Bool
  /-- Application code in this callback may let an exception escape. -/
  mayThrow : Frame → Bool
  /-- The frames that replace a frame which catches an exception. -/
  handler : Frame → Option (List Frame)
  /-- The code of an entry point called with this frame on top, if it may be. -/
  accept : Input → Option Frame → State → Option (Outcome State Frame Fault)

/-- A state with its call stack; a fault ends the run. -/
structure Config (State Frame Fault : Type) where
  state : State
  stack : List Frame
  fault : Option Fault := none

/-- One choice in a run. -/
inductive Label (Input : Type) where
  /-- The program executes its top frame. -/
  | tick
  /-- The running callback returns. -/
  | ret
  /-- The running callback is left by an exception. -/
  | throw
  /-- An entry point is called. -/
  | input (input : Input)
  deriving DecidableEq

namespace Machine

variable {State Frame Input Fault : Type}

/--
Unwinding after an exception: frames are discarded until application code or a
handler of the program catches it.
-/
def unwind
    (machine : Machine State Frame Input Fault) :
    List Frame → List Frame
  | [] => []
  | frame :: rest =>
      if machine.isCallback frame then
        frame :: rest
      else
        match machine.handler frame with
        | some frames => frames ++ rest
        | none => machine.unwind rest

/-- The configuration after an outcome, given the stack below the code. -/
def resume
    (machine : Machine State Frame Input Fault)
    (before : Config State Frame Fault)
    (below : List Frame) :
    Outcome State Frame Fault → Config State Frame Fault
  | .next state frames => ⟨state, frames ++ below, none⟩
  | .raise state => ⟨state, machine.unwind below, none⟩
  | .fault reason => ⟨before.state, before.stack, some reason⟩

/-- The environment may act: nothing runs, or a callback does. -/
def atBoundary
    (machine : Machine State Frame Input Fault) :
    List Frame → Bool
  | [] => true
  | frame :: _ => machine.isCallback frame

/-- The configuration after one choice, if the choice is possible. -/
def step?
    (machine : Machine State Frame Input Fault)
    (config : Config State Frame Fault)
    (label : Label Input) :
    Option (Config State Frame Fault) :=
  match config.fault with
  | some _ => none
  | none =>
      match label, config.stack with
      | .tick, frame :: rest =>
          if machine.isCallback frame then
            none
          else
            some (machine.resume config rest
              (machine.code frame config.state))
      | .ret, frame :: rest =>
          if machine.isCallback frame then
            some ⟨config.state, rest, none⟩
          else
            none
      | .throw, frame :: rest =>
          if machine.isCallback frame && machine.mayThrow frame then
            some ⟨config.state, machine.unwind rest, none⟩
          else
            none
      | .input input, stack =>
          if machine.atBoundary stack then
            (machine.accept input stack.head? config.state).map
              (machine.resume config stack)
          else
            none
      | _, [] => none

/-- Execute a list of choices. -/
def run?
    (machine : Machine State Frame Input Fault) :
    Config State Frame Fault →
      List (Label Input) →
      Option (Config State Frame Fault)
  | config, [] => some config
  | config, label :: rest =>
      match machine.step? config label with
      | none => none
      | some next => machine.run? next rest

/-- Every choice of a run satisfies a condition on the configuration before it. -/
def Guarded
    (machine : Machine State Frame Input Fault)
    (guard : Config State Frame Fault → Label Input → Prop) :
    Config State Frame Fault → List (Label Input) → Prop
  | _, [] => True
  | config, label :: rest =>
      guard config label ∧
        ∀ next,
          machine.step? config label = some next →
          machine.Guarded guard next rest

/-- A decidable condition on the choices of a run can be checked by running it. -/
instance decidableGuarded
    (machine : Machine State Frame Input Fault)
    (guard : Config State Frame Fault → Label Input → Prop)
    [∀ config label, Decidable (guard config label)] :
    ∀ config labels, Decidable (machine.Guarded guard config labels)
  | _, [] => isTrue trivial
  | config, label :: rest =>
      match stepped : machine.step? config label with
      | none =>
          decidable_of_iff (guard config label)
            ⟨fun permitted =>
              ⟨permitted, fun _ isSome => by simp [stepped] at isSome⟩,
              fun guarded => guarded.1⟩
      | some next =>
          haveI := decidableGuarded machine guard next rest
          decidable_of_iff
            (guard config label ∧ machine.Guarded guard next rest)
            ⟨fun guarded =>
              ⟨guarded.1, fun after isSome => by
                rw [stepped] at isSome
                cases isSome
                exact guarded.2⟩,
              fun guarded => ⟨guarded.1, guarded.2 next stepped⟩⟩

/-- A run of a concatenation passes through the end of its first part. -/
theorem run?_append
    (machine : Machine State Frame Input Fault)
    (config : Config State Frame Fault)
    (first second : List (Label Input)) :
    machine.run? config (first ++ second) =
      (machine.run? config first).bind
        fun middle => machine.run? middle second := by
  induction first generalizing config with
  | nil =>
      rfl
  | cons label rest inductionHypothesis =>
      simp only [List.cons_append, run?]
      cases machine.step? config label with
      | none =>
          rfl
      | some next =>
          exact inductionHypothesis next

/-- A guarded run, choice by choice. -/
theorem Guarded.cons
    {machine : Machine State Frame Input Fault}
    {guard : Config State Frame Fault → Label Input → Prop}
    {config next : Config State Frame Fault}
    {label : Label Input}
    {rest : List (Label Input)}
    (permitted : guard config label)
    (stepped : machine.step? config label = some next)
    (guarded : machine.Guarded guard next rest) :
    machine.Guarded guard config (label :: rest) := by
  refine ⟨permitted, fun other reached => ?_⟩
  rw [stepped] at reached
  cases reached
  exact guarded

/-- Weakening the condition of a guarded run. -/
theorem Guarded.imp
    {machine : Machine State Frame Input Fault}
    {strong weak : Config State Frame Fault → Label Input → Prop}
    (implies : ∀ config label, strong config label → weak config label)
    {config : Config State Frame Fault}
    {labels : List (Label Input)}
    (guarded : machine.Guarded strong config labels) :
    machine.Guarded weak config labels := by
  induction labels generalizing config with
  | nil =>
      trivial
  | cons label rest inductionHypothesis =>
      exact ⟨implies config label guarded.1,
        fun next stepped => inductionHypothesis (guarded.2 next stepped)⟩

/-- Every choice of a guarded run is one of its list. -/
theorem Guarded.listed
    {machine : Machine State Frame Input Fault}
    {guard : Config State Frame Fault → Label Input → Prop}
    {config : Config State Frame Fault}
    {labels : List (Label Input)}
    (guarded : machine.Guarded guard config labels) :
    machine.Guarded (fun config label => guard config label ∧ label ∈ labels)
      config labels := by
  induction labels generalizing config with
  | nil =>
      trivial
  | cons label rest inductionHypothesis =>
      refine ⟨⟨guarded.1, List.mem_cons_self⟩, fun next stepped => ?_⟩
      exact (inductionHypothesis (guarded.2 next stepped)).imp
        fun _ _ ⟨permitted, listed⟩ => ⟨permitted, List.mem_cons_of_mem _ listed⟩

/-- The first part of a guarded run is guarded. -/
theorem Guarded.front
    {machine : Machine State Frame Input Fault}
    {guard : Config State Frame Fault → Label Input → Prop}
    {config : Config State Frame Fault}
    {first second : List (Label Input)}
    (guarded : machine.Guarded guard config (first ++ second)) :
    machine.Guarded guard config first := by
  induction first generalizing config with
  | nil =>
      trivial
  | cons label rest inductionHypothesis =>
      exact ⟨guarded.1,
        fun next stepped => inductionHypothesis (guarded.2 next stepped)⟩

/-- The second part of a guarded run is guarded. -/
theorem Guarded.back
    {machine : Machine State Frame Input Fault}
    {guard : Config State Frame Fault → Label Input → Prop}
    {config middle : Config State Frame Fault}
    {first second : List (Label Input)}
    (guarded : machine.Guarded guard config (first ++ second))
    (ran : machine.run? config first = some middle) :
    machine.Guarded guard middle second := by
  induction first generalizing config with
  | nil =>
      simp only [run?, Option.some.injEq] at ran
      subst middle
      exact guarded
  | cons earlier others inductionHypothesis =>
      unfold run? at ran
      cases stepped : machine.step? config earlier with
      | none =>
          simp [stepped] at ran
      | some next =>
          simp only [stepped] at ran
          exact inductionHypothesis (guarded.2 next stepped) ran

/-- The choice after the first part of a guarded run is permitted. -/
theorem Guarded.next
    {machine : Machine State Frame Input Fault}
    {guard : Config State Frame Fault → Label Input → Prop}
    {config middle : Config State Frame Fault}
    {first rest : List (Label Input)}
    {label : Label Input}
    (guarded : machine.Guarded guard config (first ++ label :: rest))
    (ran : machine.run? config first = some middle) :
    guard middle label :=
  (guarded.back ran).1

/-- Every run is guarded by the trivial condition. -/
theorem guarded_true
    (machine : Machine State Frame Input Fault)
    (config : Config State Frame Fault)
    (labels : List (Label Input)) :
    machine.Guarded (fun _ _ => True) config labels := by
  induction labels generalizing config with
  | nil =>
      trivial
  | cons label rest inductionHypothesis =>
      exact ⟨trivial, fun next _ => inductionHypothesis next⟩

/--
A condition that follows from the guard and an invariant may be added to the
guard of a run.
-/
theorem Guarded.strengthen
    {machine : Machine State Frame Input Fault}
    {guard extra : Config State Frame Fault → Label Input → Prop}
    {invariant : Config State Frame Fault → Prop}
    (preserved :
      ∀ config label next,
        invariant config →
        guard config label →
        machine.step? config label = some next →
        invariant next)
    (implies :
      ∀ config label,
        invariant config → guard config label → extra config label)
    {config : Config State Frame Fault}
    {labels : List (Label Input)}
    (start : invariant config)
    (guarded : machine.Guarded guard config labels) :
    machine.Guarded
      (fun config label => guard config label ∧ extra config label)
      config labels := by
  induction labels generalizing config with
  | nil =>
      trivial
  | cons label rest inductionHypothesis =>
      refine ⟨⟨guarded.1, implies config label start guarded.1⟩, ?_⟩
      intro next stepped
      exact inductionHypothesis
        (preserved config label next start guarded.1 stepped)
        (guarded.2 next stepped)

/-- What a guarded step preserves holds at the end of every guarded run. -/
theorem run?_invariant
    {machine : Machine State Frame Input Fault}
    {guard : Config State Frame Fault → Label Input → Prop}
    {invariant : Config State Frame Fault → Prop}
    (preserved :
      ∀ config label next,
        invariant config →
        guard config label →
        machine.step? config label = some next →
        invariant next)
    {config final : Config State Frame Fault}
    {labels : List (Label Input)}
    (start : invariant config)
    (guarded : machine.Guarded guard config labels)
    (ran : machine.run? config labels = some final) :
    invariant final := by
  induction labels generalizing config with
  | nil =>
      simp only [run?, Option.some.injEq] at ran
      subst final
      exact start
  | cons label rest inductionHypothesis =>
      unfold run? at ran
      cases stepped : machine.step? config label with
      | none =>
          simp [stepped] at ran
      | some next =>
          simp only [stepped] at ran
          exact inductionHypothesis
            (preserved config label next start guarded.1 stepped)
            (guarded.2 next stepped) ran

/--
An invariant of a state and its stack, one obligation for each kind of step.
A fault leaves state and stack as they were, so it has no obligation.
-/
structure Preserves
    (machine : Machine State Frame Input Fault)
    (guard : Config State Frame Fault → Label Input → Prop)
    (invariant : State → List Frame → Prop) : Prop where
  tick :
    ∀ frame rest state next frames,
      machine.isCallback frame = false →
      guard ⟨state, frame :: rest, none⟩ .tick →
      invariant state (frame :: rest) →
      machine.code frame state = .next next frames →
      invariant next (frames ++ rest)
  tickRaise :
    ∀ frame rest state next,
      machine.isCallback frame = false →
      guard ⟨state, frame :: rest, none⟩ .tick →
      invariant state (frame :: rest) →
      machine.code frame state = .raise next →
      invariant next (machine.unwind rest)
  ret :
    ∀ frame rest state,
      machine.isCallback frame = true →
      invariant state (frame :: rest) →
      invariant state rest
  throw :
    ∀ frame rest state,
      machine.isCallback frame = true →
      machine.mayThrow frame = true →
      guard ⟨state, frame :: rest, none⟩ .throw →
      invariant state (frame :: rest) →
      invariant state (machine.unwind rest)
  input :
    ∀ input stack state next frames,
      machine.atBoundary stack = true →
      guard ⟨state, stack, none⟩ (.input input) →
      invariant state stack →
      machine.accept input stack.head? state = some (.next next frames) →
      invariant next (frames ++ stack)
  inputRaise :
    ∀ input stack state next,
      machine.atBoundary stack = true →
      guard ⟨state, stack, none⟩ (.input input) →
      invariant state stack →
      machine.accept input stack.head? state = some (.raise next) →
      invariant next stack

/-- Unwinding stops at once where application code is running. -/
@[simp] theorem unwind_of_atBoundary
    {machine : Machine State Frame Input Fault}
    {stack : List Frame}
    (boundary : machine.atBoundary stack = true) :
    machine.unwind stack = stack := by
  cases stack with
  | nil =>
      rfl
  | cons frame rest =>
      simp only [atBoundary] at boundary
      simp [unwind, boundary]

/-- What one choice does, by its kind. -/
inductive Steps
    (machine : Machine State Frame Input Fault)
    (before : Config State Frame Fault) :
    Label Input → Config State Frame Fault → Prop where
  | tick {frame : Frame} {rest : List Frame} :
      before.stack = frame :: rest →
      machine.isCallback frame = false →
      Steps machine before .tick
        (machine.resume before rest (machine.code frame before.state))
  | ret {frame : Frame} {rest : List Frame} :
      before.stack = frame :: rest →
      machine.isCallback frame = true →
      Steps machine before .ret ⟨before.state, rest, none⟩
  | throw {frame : Frame} {rest : List Frame} :
      before.stack = frame :: rest →
      machine.isCallback frame = true →
      Steps machine before .throw ⟨before.state, machine.unwind rest, none⟩
  | input {called : Input} {outcome : Outcome State Frame Fault} :
      machine.atBoundary before.stack = true →
      machine.accept called before.stack.head? before.state = some outcome →
      Steps machine before (.input called)
        (machine.resume before before.stack outcome)

theorem steps_of_step?
    {machine : Machine State Frame Input Fault}
    {before after : Config State Frame Fault}
    {label : Label Input}
    (stepped : machine.step? before label = some after) :
    machine.Steps before label after := by
  obtain ⟨state, stack, fault⟩ := before
  cases fault with
  | some reason =>
      simp [step?] at stepped
  | none =>
      cases label with
      | tick =>
          cases stack with
          | nil =>
              simp [step?] at stepped
          | cons frame rest =>
              cases callback : machine.isCallback frame with
              | true =>
                  simp [step?, callback] at stepped
              | false =>
                  simp only [step?, callback, Bool.false_eq_true, ↓reduceIte,
                    Option.some.injEq] at stepped
                  subst after
                  exact .tick rfl callback
      | ret =>
          cases stack with
          | nil =>
              simp [step?] at stepped
          | cons frame rest =>
              simp only [step?, Option.ite_none_right_eq_some,
                Option.some.injEq] at stepped
              obtain ⟨callback, rfl⟩ := stepped
              exact .ret rfl callback
      | throw =>
          cases stack with
          | nil =>
              simp [step?] at stepped
          | cons frame rest =>
              simp only [step?, Option.ite_none_right_eq_some,
                Option.some.injEq, Bool.and_eq_true] at stepped
              obtain ⟨⟨callback, _⟩, rfl⟩ := stepped
              exact .throw rfl callback
      | input called =>
          simp only [step?, Option.ite_none_right_eq_some,
            Option.map_eq_some_iff] at stepped
          obtain ⟨boundary, outcome, accepted, rfl⟩ := stepped
          exact .input boundary accepted

/-- There is no step after a fault. -/
theorem noFault_of_step?
    {machine : Machine State Frame Input Fault}
    {before after : Config State Frame Fault}
    {label : Label Input}
    (stepped : machine.step? before label = some after) :
    before.fault = none := by
  cases isFault : before.fault with
  | none =>
      rfl
  | some reason =>
      simp [step?, isFault] at stepped

/-- The obligations of `Preserves` cover every step. -/
theorem Preserves.step
    {machine : Machine State Frame Input Fault}
    {guard : Config State Frame Fault → Label Input → Prop}
    {invariant : State → List Frame → Prop}
    (preserves : machine.Preserves guard invariant)
    (config : Config State Frame Fault)
    (label : Label Input)
    (next : Config State Frame Fault)
    (holds : invariant config.state config.stack)
    (permitted : guard config label)
    (stepped : machine.step? config label = some next) :
    invariant next.state next.stack := by
  obtain ⟨state, stack, fault⟩ := config
  cases fault with
  | some reason =>
      simp [step?] at stepped
  | none =>
      cases label with
      | tick =>
          cases stack with
          | nil =>
              simp [step?] at stepped
          | cons frame rest =>
              cases callback : machine.isCallback frame with
              | true =>
                  simp [step?, callback] at stepped
              | false =>
                  simp only [step?, callback, Bool.false_eq_true,
                    ↓reduceIte, Option.some.injEq] at stepped
                  subst next
                  cases executed : machine.code frame state with
                  | next after frames =>
                      exact preserves.tick frame rest state after frames
                        callback permitted holds executed
                  | raise after =>
                      exact preserves.tickRaise frame rest state after
                        callback permitted holds executed
                  | fault reason =>
                      exact holds
      | ret =>
          cases stack with
          | nil =>
              simp [step?] at stepped
          | cons frame rest =>
              cases callback : machine.isCallback frame with
              | true =>
                  simp only [step?, callback, ↓reduceIte,
                    Option.some.injEq] at stepped
                  subst next
                  exact preserves.ret frame rest state callback holds
              | false =>
                  simp [step?, callback] at stepped
      | throw =>
          cases stack with
          | nil =>
              simp [step?] at stepped
          | cons frame rest =>
              by_cases throws :
                  (machine.isCallback frame &&
                    machine.mayThrow frame) = true
              · simp only [step?, throws, ↓reduceIte,
                  Option.some.injEq] at stepped
                subst next
                simp only [Bool.and_eq_true] at throws
                exact preserves.throw frame rest state
                  throws.1 throws.2 permitted holds
              · simp [step?, throws] at stepped
      | input called =>
          cases boundary : machine.atBoundary stack with
          | false =>
              simp [step?, boundary] at stepped
          | true =>
              simp only [step?, boundary, ↓reduceIte,
                Option.map_eq_some_iff] at stepped
              obtain ⟨outcome, accepted, rfl⟩ := stepped
              cases outcome with
              | next after frames =>
                  exact preserves.input called stack state after frames
                    boundary permitted holds accepted
              | raise after =>
                  simp only [resume, unwind_of_atBoundary boundary]
                  exact preserves.inputRaise called stack state after
                    boundary permitted holds accepted
              | fault reason =>
                  exact holds

/-- A preserved invariant holds at the end of every guarded run. -/
theorem Preserves.run
    {machine : Machine State Frame Input Fault}
    {guard : Config State Frame Fault → Label Input → Prop}
    {invariant : State → List Frame → Prop}
    (preserves : machine.Preserves guard invariant)
    {config final : Config State Frame Fault}
    {labels : List (Label Input)}
    (start : invariant config.state config.stack)
    (guarded : machine.Guarded guard config labels)
    (ran : machine.run? config labels = some final) :
    invariant final.state final.stack := by
  have preserved :
      ∀ config label next,
        (fun config : Config State Frame Fault =>
          invariant config.state config.stack) config →
        guard config label →
        machine.step? config label = some next →
        (fun config : Config State Frame Fault =>
          invariant config.state config.stack) next :=
    preserves.step
  exact run?_invariant preserved start guarded ran

/--
An invariant of the state alone, which no choice that the guard permits breaks,
and the faults that may end a run.
-/
structure Maintains
    (machine : Machine State Frame Input Fault)
    (guard : Config State Frame Fault → Label Input → Prop)
    (invariant : State → Prop)
    (reasons : Fault → Prop) : Prop where
  tick :
    ∀ frame rest state,
      machine.isCallback frame = false →
      guard ⟨state, frame :: rest, none⟩ .tick →
      invariant state →
      (machine.code frame state).Holds invariant reasons
  input :
    ∀ input stack state outcome,
      machine.atBoundary stack = true →
      guard ⟨state, stack, none⟩ (.input input) →
      invariant state →
      machine.accept input stack.head? state = some outcome →
      outcome.Holds invariant reasons

/-- What holds of an outcome holds of the configuration after it. -/
theorem resume_holds
    {machine : Machine State Frame Input Fault}
    {invariant : State → Prop}
    {reasons : Fault → Prop}
    {outcome : Outcome State Frame Fault}
    (before : Config State Frame Fault)
    (below : List Frame)
    (start : invariant before.state)
    (holds : outcome.Holds invariant reasons) :
    invariant (machine.resume before below outcome).state ∧
      ∀ reason ∈ (machine.resume before below outcome).fault,
        reasons reason := by
  cases outcome with
  | next state frames | raise state =>
      exact ⟨holds, by simp [resume]⟩
  | fault reason =>
      exact ⟨start, by simpa [resume, Outcome.Holds] using holds⟩

/-- What is maintained holds after a step that the guard permits. -/
theorem Maintains.step
    {machine : Machine State Frame Input Fault}
    {guard : Config State Frame Fault → Label Input → Prop}
    {invariant : State → Prop}
    {reasons : Fault → Prop}
    (maintains : machine.Maintains guard invariant reasons)
    (config : Config State Frame Fault)
    (label : Label Input)
    (next : Config State Frame Fault)
    (holds :
      invariant config.state ∧ ∀ reason ∈ config.fault, reasons reason)
    (permitted : guard config label)
    (stepped : machine.step? config label = some next) :
    invariant next.state ∧ ∀ reason ∈ next.fault, reasons reason := by
  obtain ⟨state, stack, fault⟩ := config
  cases fault with
  | some reason =>
      simp [step?] at stepped
  | none =>
      cases label with
      | tick =>
          cases stack with
          | nil =>
              simp [step?] at stepped
          | cons frame rest =>
              cases callback : machine.isCallback frame with
              | true =>
                  simp [step?, callback] at stepped
              | false =>
                  simp only [step?, callback, Bool.false_eq_true,
                    ↓reduceIte, Option.some.injEq] at stepped
                  subst next
                  exact resume_holds _ rest holds.1
                    (maintains.tick frame rest state callback permitted holds.1)
      | ret =>
          cases stack with
          | nil =>
              simp [step?] at stepped
          | cons frame rest =>
              simp only [step?, Option.ite_none_right_eq_some,
                Option.some.injEq] at stepped
              obtain ⟨_, rfl⟩ := stepped
              exact ⟨holds.1, by simp⟩
      | throw =>
          cases stack with
          | nil =>
              simp [step?] at stepped
          | cons frame rest =>
              simp only [step?, Option.ite_none_right_eq_some,
                Option.some.injEq] at stepped
              obtain ⟨_, rfl⟩ := stepped
              exact ⟨holds.1, by simp⟩
      | input called =>
          cases boundary : machine.atBoundary stack with
          | false =>
              simp [step?, boundary] at stepped
          | true =>
              simp only [step?, boundary, ↓reduceIte,
                Option.map_eq_some_iff] at stepped
              obtain ⟨outcome, accepted, rfl⟩ := stepped
              exact resume_holds _ stack holds.1
                (maintains.input called stack state outcome boundary permitted
                  holds.1 accepted)

/-- What is maintained holds at the end of every guarded run. -/
theorem Maintains.run
    {machine : Machine State Frame Input Fault}
    {guard : Config State Frame Fault → Label Input → Prop}
    {invariant : State → Prop}
    {reasons : Fault → Prop}
    (maintains : machine.Maintains guard invariant reasons)
    {config final : Config State Frame Fault}
    {labels : List (Label Input)}
    (start : invariant config.state)
    (noFault : config.fault = none)
    (guarded : machine.Guarded guard config labels)
    (ran : machine.run? config labels = some final) :
    invariant final.state ∧ ∀ reason ∈ final.fault, reasons reason :=
  run?_invariant maintains.step ⟨start, by simp [noFault]⟩ guarded ran

end Machine

end CallMachine
