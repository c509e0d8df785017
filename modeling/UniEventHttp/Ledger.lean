import Mathlib.Data.Set.Card

namespace Ledger

/-!
# Ledgers

Items come in and go out, and in between each of them is kept by somebody.  A
ledger is balanced if, for every kind of item, as many have come in as have gone
out or are kept.  The rules say what a change of the keepers does to the ledger.
-/

variable {Item Keeper : Type}
variable {credit credit' debit debit' : Item → Nat}
variable {keeps keeps' : Item → Keeper → Prop}

/-- What has come in has gone out, or somebody keeps it. -/
def Balanced
    (credit debit : Item → Nat)
    (keeps : Item → Keeper → Prop) :
    Prop :=
  ∀ item, (credit item : ℕ∞) = debit item + {keeper | keeps item keeper}.encard

/-- Nothing has come in. -/
theorem balanced_zero
    (none : ∀ item keeper, ¬ keeps item keeper) :
    Balanced (fun _ => 0) (fun _ => 0) keeps := by
  intro item
  have nobody : {keeper | keeps item keeper} = ∅ :=
    Set.eq_empty_of_forall_notMem (none item)
  simp [nobody]

/-- The same keepers keep the same items. -/
theorem Balanced.congr
    (balanced : Balanced credit debit keeps)
    (sameCredit : ∀ item, credit' item = credit item)
    (sameDebit : ∀ item, debit' item = debit item)
    (sameKeepers : ∀ item keeper, keeps' item keeper ↔ keeps item keeper) :
    Balanced credit' debit' keeps' := by
  intro item
  have same : {keeper | keeps' item keeper} = {keeper | keeps item keeper} :=
    Set.ext (sameKeepers item)
  rw [sameCredit, sameDebit, same]
  exact balanced item

/-- A keeper gives an item away. -/
theorem Balanced.gives
    {given : Item}
    {giver : Keeper}
    [DecidableEq Item]
    (balanced : Balanced credit debit keeps)
    (kept : keeps given giver)
    (sameCredit : ∀ item, credit' item = credit item)
    (goesOut :
      ∀ item, debit' item = debit item + if item = given then 1 else 0)
    (fewer :
      ∀ item keeper,
        keeps' item keeper ↔
          keeps item keeper ∧ ¬ (item = given ∧ keeper = giver)) :
    Balanced credit' debit' keeps' := by
  intro item
  have before := balanced item
  by_cases same : item = given
  · subst same
    have keepers :
        {keeper | keeps' item keeper} =
          {keeper | keeps item keeper} \ {giver} := by
      ext keeper
      simp [fewer]
    have isKeeper : giver ∈ {keeper | keeps item keeper} := kept
    rw [sameCredit, goesOut, before, keepers,
      ← Set.encard_sdiff_singleton_add_one isKeeper, if_pos rfl]
    push_cast
    rw [add_assoc, add_comm (1 : ℕ∞)]
  · have keepers :
        {keeper | keeps' item keeper} = {keeper | keeps item keeper} := by
      ext keeper
      simp [fewer, same]
    rw [sameCredit, goesOut, keepers, if_neg same, Nat.add_zero]
    exact before

/-- Somebody takes an item. -/
theorem Balanced.takes
    {taken : Item}
    {taker : Keeper}
    [DecidableEq Item]
    (balanced : Balanced credit debit keeps)
    (free : ¬ keeps taken taker)
    (sameCredit : ∀ item, credit' item = credit item)
    (comesBack :
      ∀ item, debit item = debit' item + if item = taken then 1 else 0)
    (more :
      ∀ item keeper,
        keeps' item keeper ↔
          keeps item keeper ∨ item = taken ∧ keeper = taker) :
    Balanced credit' debit' keeps' := by
  intro item
  have before := balanced item
  by_cases same : item = taken
  · subst same
    have keepers :
        {keeper | keeps' item keeper} =
          insert taker {keeper | keeps item keeper} := by
      ext keeper
      simp [more, or_comm]
    have notKeeper : taker ∉ {keeper | keeps item keeper} := free
    rw [sameCredit, before, comesBack, keepers,
      Set.encard_insert_of_notMem notKeeper, if_pos rfl]
    push_cast
    rw [add_assoc, add_comm (1 : ℕ∞)]
  · have keepers :
        {keeper | keeps' item keeper} = {keeper | keeps item keeper} := by
      ext keeper
      simp [more, same]
    rw [sameCredit, before, comesBack, keepers, if_neg same, Nat.add_zero]

/-- Items come in and go out at once. -/
theorem Balanced.passes
    (balanced : Balanced credit debit keeps)
    (more : Item → Nat) :
    Balanced (fun item => credit item + more item)
      (fun item => debit item + more item) keeps := by
  intro item
  have before := balanced item
  push_cast
  rw [before, add_right_comm]

end Ledger
