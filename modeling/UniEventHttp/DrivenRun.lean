import UniEventHttp.CallMachine

namespace CallMachine.Machine

/-!
# Runs that the environment does not branch

Where the guard of a run leaves one choice at a time, the run is driven through a
known sequence of configurations.  `Drives` says that it gets to a goal in this
way, or has not come that far yet; a program is then executed symbolically, one
lemma for each of its functions.
-/

variable {State Frame Input Fault : Type}

/--
Every guarded run from the configuration gets to the goal, or it ends on the way,
with something still running and without a fault; on the way there are only
choices of one kind.
-/
def Drives
    (machine : Machine State Frame Input Fault)
    (guard : Config State Frame Fault → Label Input → Prop)
    (silent : Label Input → Prop)
    (config : Config State Frame Fault)
    (goal : Config State Frame Fault → Prop) : Prop :=
  ∀ labels final,
    machine.Guarded guard config labels →
    machine.run? config labels = some final →
    final.fault = none ∧ final.stack ≠ [] ∧ (∀ label ∈ labels, silent label) ∨
      ∃ first second middle,
        labels = first ++ second ∧
          (∀ label ∈ first, silent label) ∧
          machine.run? config first = some middle ∧
          goal middle

section Drives

variable {machine : Machine State Frame Input Fault}
variable {guard : Config State Frame Fault → Label Input → Prop}
variable {silent : Label Input → Prop}
variable {config : Config State Frame Fault}
variable {goal : Config State Frame Fault → Prop}

/-- The run is at its goal. -/
theorem Drives.refl (reached : goal config) :
    machine.Drives guard silent config goal := by
  intro labels final guarded ran
  exact Or.inr ⟨[], labels, config, rfl, by simp, rfl, reached⟩

/-- One way after another. -/
theorem Drives.trans
    {between : Config State Frame Fault → Prop}
    (first : machine.Drives guard silent config between)
    (second :
      ∀ middle, between middle → machine.Drives guard silent middle goal) :
    machine.Drives guard silent config goal := by
  intro labels final guarded ran
  rcases first labels final guarded ran with
    ends | ⟨front, back, middle, rfl, quiet, ranFront, isBetween⟩
  · exact Or.inl ends
  · have ranBack : machine.run? middle back = some final := by
      rwa [run?_append, ranFront] at ran
    rcases second middle isBetween back final (guarded.back ranFront)
        ranBack with
      ⟨noFault, running, quietBack⟩ |
        ⟨more, rest, last, rfl, quietMore, ranMore, isGoal⟩
    · refine Or.inl ⟨noFault, running, fun label member => ?_⟩
      rcases List.mem_append.mp member with inFront | inBack
      · exact quiet label inFront
      · exact quietBack label inBack
    · refine Or.inr
        ⟨front ++ more, rest, last, by simp, fun label member => ?_, ?_,
          isGoal⟩
      · rcases List.mem_append.mp member with inFront | inMore
        · exact quiet label inFront
        · exact quietMore label inMore
      · rw [run?_append, ranFront]
        exact ranMore

/-- A weaker goal. -/
theorem Drives.imp
    {weaker : Config State Frame Fault → Prop}
    (drives : machine.Drives guard silent config goal)
    (implies : ∀ middle, goal middle → weaker middle) :
    machine.Drives guard silent config weaker :=
  drives.trans fun middle isGoal => .refl (implies middle isGoal)

/-- Something runs, and whatever is chosen leads on. -/
theorem Drives.choice
    (noFault : config.fault = none)
    (running : config.stack ≠ [])
    (forced :
      ∀ label next,
        guard config label →
        machine.step? config label = some next →
        silent label ∧ machine.Drives guard silent next goal) :
    machine.Drives guard silent config goal := by
  intro labels final guarded ran
  cases labels with
  | nil =>
      simp only [run?, Option.some.injEq] at ran
      subst final
      exact Or.inl ⟨noFault, running, by simp⟩
  | cons label rest =>
      unfold run? at ran
      cases stepped : machine.step? config label with
      | none =>
          simp [stepped] at ran
      | some next =>
          simp only [stepped] at ran
          obtain ⟨quiet, drives⟩ := forced label next guarded.1 stepped
          rcases drives rest final (guarded.2 next stepped) ran with
            ⟨finalFault, finalRunning, quietRest⟩ |
              ⟨front, back, middle, rfl, quietFront, ranFront, isGoal⟩
          · refine Or.inl ⟨finalFault, finalRunning, ?_⟩
            simpa using ⟨quiet, quietRest⟩
          · refine Or.inr
              ⟨label :: front, back, middle, rfl, ?_, ?_, isGoal⟩
            · simpa using ⟨quiet, quietFront⟩
            · unfold run?
              simpa only [stepped] using ranFront

variable {state : State} {frame : Frame} {rest : List Frame}

/-- The program executes its top frame. -/
theorem Drives.tick
    {next : State}
    {frames : List Frame}
    (isCode : machine.isCallback frame = false)
    (onlyTick :
      ∀ label, guard ⟨state, frame :: rest, none⟩ label → label = .tick)
    (quiet : silent .tick)
    (executed : machine.code frame state = .next next frames)
    (drives : machine.Drives guard silent ⟨next, frames ++ rest, none⟩ goal) :
    machine.Drives guard silent ⟨state, frame :: rest, none⟩ goal := by
  refine .choice rfl (by simp) fun label after permitted stepped => ?_
  obtain rfl := onlyTick label permitted
  simp only [step?, isCode, executed, resume, Bool.false_eq_true, ↓reduceIte,
    Option.some.injEq] at stepped
  subst after
  exact ⟨quiet, drives⟩

/-- The program fails in its top frame. -/
theorem Drives.fault
    {reason : Fault}
    (isCode : machine.isCallback frame = false)
    (onlyTick :
      ∀ label, guard ⟨state, frame :: rest, none⟩ label → label = .tick)
    (quiet : silent .tick)
    (executed : machine.code frame state = .fault reason)
    (reached : goal ⟨state, frame :: rest, some reason⟩) :
    machine.Drives guard silent ⟨state, frame :: rest, none⟩ goal := by
  refine .choice rfl (by simp) fun label after permitted stepped => ?_
  obtain rfl := onlyTick label permitted
  simp only [step?, isCode, executed, resume, Bool.false_eq_true, ↓reduceIte,
    Option.some.injEq] at stepped
  subst after
  exact ⟨quiet, .refl reached⟩

/-- The running callback returns. -/
theorem Drives.ret
    (isCallback : machine.isCallback frame = true)
    (onlyReturn :
      ∀ label, guard ⟨state, frame :: rest, none⟩ label → label = .ret)
    (quiet : silent .ret)
    (drives : machine.Drives guard silent ⟨state, rest, none⟩ goal) :
    machine.Drives guard silent ⟨state, frame :: rest, none⟩ goal := by
  refine .choice rfl (by simp) fun label after permitted stepped => ?_
  obtain rfl := onlyReturn label permitted
  simp only [step?, isCallback, ↓reduceIte, Option.some.injEq] at stepped
  subst after
  exact ⟨quiet, drives⟩

/-- The running callback calls an entry point. -/
theorem Drives.call
    {input : Input}
    {next : State}
    {frames : List Frame}
    (isCallback : machine.isCallback frame = true)
    (onlyCall :
      ∀ label,
        guard ⟨state, frame :: rest, none⟩ label → label = .input input)
    (quiet : silent (.input input))
    (accepted :
      machine.accept input (some frame) state = some (.next next frames))
    (drives :
      machine.Drives guard silent ⟨next, frames ++ frame :: rest, none⟩ goal) :
    machine.Drives guard silent ⟨state, frame :: rest, none⟩ goal := by
  refine .choice rfl (by simp) fun label after permitted stepped => ?_
  obtain rfl := onlyCall label permitted
  simp only [step?, atBoundary, isCallback, ↓reduceIte, List.head?_cons,
    accepted, Option.map_some, resume, Option.some.injEq] at stepped
  subst after
  exact ⟨quiet, drives⟩

end Drives

end CallMachine.Machine
