import Mathlib.Data.List.Basic

namespace ErasingLoop

/-!
# Loops that erase while they iterate

`for (it = begin; it != end;) { if (…) it = erase(it); else ++it; }` visits an
element at the position of the iterator, where it may change or erase it, and a
state beside the list.  Such a loop is one pass over the elements, in order.
-/

variable {State α : Type}

/-- The loop from a position on, with what it leaves of the list. -/
def run
    (visit : State → α → State × Option α)
    (state : State)
    (items : List α)
    (position : Nat) :
    State × List α :=
  if inside : position < items.length then
    match visit state items[position] with
    | (next, none) => run visit next (items.eraseIdx position) position
    | (next, some item) => run visit next (items.set position item) (position + 1)
  else
    (state, items)
termination_by items.length - position
decreasing_by
  · rw [List.length_eraseIdx_of_lt inside]
    omega
  · rw [List.length_set]
    omega

/-- One pass over the elements. -/
def pass
    (visit : State → α → State × Option α) :
    State → List α → State × List α
  | state, [] => (state, [])
  | state, item :: rest =>
      let visited := visit state item
      let after := pass visit visited.1 rest
      (after.1, visited.2.toList ++ after.2)

/-- What is before the position stays, and what is behind it is passed over. -/
theorem run_append
    (visit : State → α → State × Option α)
    (state : State)
    (before rest : List α) :
    run visit state (before ++ rest) before.length =
      ((pass visit state rest).1, before ++ (pass visit state rest).2) := by
  induction rest generalizing state before with
  | nil =>
      unfold run
      simp [pass]
  | cons item rest inductionHypothesis =>
      unfold run
      have inside : before.length < (before ++ item :: rest).length := by simp
      simp only [inside, ↓reduceDIte, List.getElem_append_right, Nat.le_refl,
        Nat.sub_self, List.getElem_cons_zero]
      cases visited : visit state item with
      | mk next outcome =>
          cases outcome with
          | none =>
              have erased :
                  (before ++ item :: rest).eraseIdx before.length =
                    before ++ rest := by
                rw [List.eraseIdx_append_of_length_le (Nat.le_refl _)]
                simp
              simp [erased, inductionHypothesis, pass, visited]
          | some changed =>
              have replaced :
                  (before ++ item :: rest).set before.length changed =
                    (before ++ [changed]) ++ rest := by
                simp
              have further := inductionHypothesis next (before ++ [changed])
              rw [List.length_append, List.length_singleton] at further
              simp only [replaced, further, pass, visited]
              simp

/-- The whole loop is one pass. -/
theorem run_eq_pass
    (visit : State → α → State × Option α)
    (state : State)
    (items : List α) :
    run visit state items 0 = pass visit state items := by
  have whole := run_append visit state [] items
  simpa using whole

/-- A loop that only looks at the element leaves what the visits leave. -/
theorem run_filterMap
    (visit : α → Option α)
    (state : State)
    (items : List α) :
    run (fun state item => (state, visit item)) state items 0 =
      (state, items.filterMap visit) := by
  rw [run_eq_pass]
  induction items generalizing state with
  | nil =>
      rfl
  | cons item rest inductionHypothesis =>
      simp only [pass, inductionHypothesis, List.filterMap_cons]
      cases visit item <;> rfl

/-- A loop that erases and collects what it erases divides the list. -/
theorem run_partition
    (erased : α → Bool)
    (collected items : List α) :
    run
        (fun collected item =>
          if erased item then (collected ++ [item], none)
          else (collected, some item))
        collected items 0 =
      (collected ++ items.filter erased,
        items.filter fun item => !erased item) := by
  rw [run_eq_pass]
  induction items generalizing collected with
  | nil =>
      simp [pass]
  | cons item rest inductionHypothesis =>
      cases gone : erased item <;>
        simp [pass, gone, inductionHypothesis]

end ErasingLoop
